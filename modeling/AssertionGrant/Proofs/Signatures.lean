import AssertionGrant.Assertion
import AssertionGrant.Proofs.Steps

/-! What it means that a key signed an assertion, and that nothing else makes the check of the
assertion pass. A key is refused for what it is or for what it does not verify; a fault comes only of
an RSA key with its private half, and of bytes that are taken for a key file. -/

namespace AssertionGrant

def KeyMaterial.IsPublic : KeyMaterial → Prop
  | .rsaPublic _ | .ecPublic .. | .ed25519Public _ | .ed448Public _ => True
  | _ => False

def KeyMaterial.IsTame : KeyMaterial → Prop
  | .rsaPrivate _ | .secret _ | .text _ => False
  | _ => True

theorem KeyMaterial.IsPublic.isTame {material : KeyMaterial} (h : material.IsPublic) :
    material.IsTame := by
  cases material <;> trivial

def Algorithm.IsRsa : Algorithm → Prop
  | .rsa _ | .rsaSalted _ => True
  | _ => False

/-- The key verifies the signature of a token by an algorithm that its header names and that is
allowed. -/
def Compact.SignedBy [Json.Nesting] (t : Compact) (allowed : List Text) (key : Jwk) : Prop :=
  ∃ name alg, t.header.get? "alg" = some (.str name) ∧ name ∈ allowed ∧
    Algorithm.ofName? name = some alg ∧ alg.verify key.material t.input t.signature = .ok true

section Signatures

variable {t : Compact} {allowed : List Text} {key : Jwk} {fields : Fields} {e : Fault}

theorem Compact.algorithm_eq_ok {alg : Algorithm} :
    t.algorithm allowed = .ok alg ↔ ∃ name, t.header.get? "alg" = some (.str name) ∧
      name ∈ allowed ∧ Algorithm.ofName? name = some alg := by
  unfold algorithm
  split
  · next h =>
    rw [h]
    simp only [reduceCtorEq, false_and, exists_false]
  · next name h =>
    rw [h]
    simp only [Option.some.injEq, Json.str.injEq, exists_eq_left']
    split
    · next hn =>
      simp only [reduceCtorEq, false_iff, not_and]
      intro hmem hknown
      rcases Bool.or_eq_true_iff.mp hn with he | hc
      · rw [List.isEmpty_iff.mp he] at hknown
        cases hknown
      · simp [hmem] at hc
    · next hn =>
      have hmem : name ∈ allowed := by
        rw [Bool.or_eq_true, not_or] at hn
        simpa using hn.2
      simp only [hmem, true_and]
      split
      · next hknown => simp only [hknown, reduceCtorEq]
      · next alg' hknown => simp only [hknown, Except.ok.injEq, Option.some.injEq]
  · next hne h =>
    simp only [reduceCtorEq, false_iff, not_exists, not_and]
    intro name hname
    rw [h] at hname
    exact absurd (Option.some.inj hname) (hne name)

theorem Algorithm.onCurve_cases (curve : Crypto.Curve) (material : KeyMaterial) :
    onCurve curve material = .ok material ∨
      ∃ f, onCurve curve material = .error f ∧ f.toFault? = none := by
  by_cases h : onCurve curve material = .ok material
  · exact .inl h
  · right
    unfold onCurve at h ⊢
    dsimp only at h ⊢
    rw [if_neg (fun he => h (if_pos he))]
    exact ⟨_, rfl, rfl⟩

variable [Json.Nesting]

theorem Compact.verifiedClaims_eq_ok :
    t.verifiedClaims key.material allowed = .ok fields ↔
      t.SignedBy allowed key ∧ t.unverifiedClaims = .ok fields := by
  unfold verifiedClaims unverifiedClaims SignedBy
  constructor
  · intro h
    split at h
    · cases h
    obtain ⟨u, hattached, h⟩ := bind_eq_ok.mp h
    obtain ⟨alg, halg, h⟩ := bind_eq_ok.mp h
    obtain ⟨name, hname, hmem, hknown⟩ := algorithm_eq_ok.mp halg
    split at h
    · cases h
    · cases h
    · next hv => exact ⟨⟨name, alg, hname, hmem, hknown, hv⟩, bind_eq_ok.mpr ⟨u, hattached, h⟩⟩
  · rintro ⟨⟨name, alg, hname, hmem, hknown, hv⟩, h⟩
    obtain ⟨u, hattached, h⟩ := bind_eq_ok.mp h
    have hne : allowed.isEmpty = false := List.isEmpty_eq_false_iff.mpr (List.ne_nil_of_mem hmem)
    rw [hne]
    refine bind_eq_ok.mpr ⟨u, hattached, bind_eq_ok.mpr ⟨alg, ?_, ?_⟩⟩
    · exact algorithm_eq_ok.mpr ⟨name, hname, hmem, hknown⟩
    · rw [hv]
      exact h

theorem Assertion.verify_eq_ok :
    verify t key.material allowed = .ok fields ↔
      t.SignedBy allowed key ∧ t.unverifiedClaims = .ok fields := by
  rw [← Compact.verifiedClaims_eq_ok]
  unfold verify
  split
  · next h => rw [h, Except.ok.injEq, Except.ok.injEq]
  · next h =>
    rw [h]
    split <;> simp only [reduceCtorEq]
  · next h =>
    rw [h]
    simp only [reduceCtorEq]

theorem Algorithm.prepare_of_bytesOf {material : KeyMaterial} (hbytes : bytesOf? material = none)
    (alg : Algorithm) : alg.prepare material = .ok material ∨
      ∃ f, alg.prepare material = .error f ∧ f.toFault? = none := by
  have hkey (reader : Bytes → Except KeyFault KeyMaterial) (fits : KeyMaterial → Bool)
      (otherwise : KeyFault) : keyFor material reader fits otherwise =
        if fits material then .ok material else .error otherwise := by
    unfold keyFor
    rw [hbytes]
  unfold prepare
  cases alg with
  | unsecured =>
    dsimp only
    split
    · next h =>
      rcases h with rfl | rfl
      · exact .inl rfl
      · cases hbytes
    · exact .inr ⟨_, rfl, rfl⟩
  | hmac h =>
    right
    dsimp only
    unfold secretOf
    rw [hbytes]
    exact ⟨_, rfl, rfl⟩
  | rsa h | rsaSalted h | edwards =>
    dsimp only
    rw [hkey]
    split
    · exact .inl rfl
    · exact .inr ⟨_, rfl, rfl⟩
  | ecdsa h curve =>
    dsimp only
    rw [hkey]
    split
    · exact onCurve_cases curve material
    · exact .inr ⟨_, rfl, rfl⟩

theorem Algorithm.prepare_of_isTame {material : KeyMaterial} (hp : material.IsTame)
    (alg : Algorithm) : alg.prepare material = .ok material ∨
      ∃ f, alg.prepare material = .error f ∧ f.toFault? = none := by
  refine prepare_of_bytesOf ?_ alg
  cases material <;> first | rfl | cases hp

theorem Algorithm.toFault?_of_verify {alg : Algorithm} {material : KeyMaterial}
    {message signature : Bytes} {f : KeyFault} (hp : material.IsTame)
    (h : alg.verify material message signature = .error f) : f.toFault? = none := by
  unfold verify at h
  rcases prepare_of_isTame hp alg with hprep | ⟨f', hprep, hf'⟩
  · rw [hprep] at h
    cases material <;> cases hp <;> cases alg <;> cases h
  · rw [hprep] at h
    obtain rfl := Except.error.inj h
    exact hf'

theorem Compact.verifiedClaims_eq_key {material : KeyMaterial} {f : KeyFault} :
    t.verifiedClaims material allowed = .error (.key f) ↔ t.checkAttached = .ok () ∧
      ∃ alg, t.algorithm allowed = .ok alg ∧ alg.verify material t.input t.signature = .error f := by
  unfold verifiedClaims
  constructor
  · intro h
    split at h
    · cases h
    have hattached : t.checkAttached ≠ .error (.key f) := by
      unfold checkAttached
      repeat' split
      all_goals nofun
    have halgorithm : t.algorithm allowed ≠ .error (.key f) := by
      unfold algorithm
      repeat' split
      all_goals nofun
    rcases bind_eq_error.mp h with h | ⟨_, hok, h⟩
    · exact absurd h hattached
    rcases bind_eq_error.mp h with h | ⟨alg, halg, h⟩
    · exact absurd h halgorithm
    refine ⟨hok, alg, halg, ?_⟩
    split at h
    · next hv => rw [hv, Fault.key.inj (Except.error.inj h)]
    · cases h
    · unfold payloadFields at h
      split at h <;> cases h
  · rintro ⟨hok, alg, halg, hv⟩
    obtain ⟨name, -, hmem, -⟩ := algorithm_eq_ok.mp halg
    have hne : allowed.isEmpty = false := List.isEmpty_eq_false_iff.mpr (List.ne_nil_of_mem hmem)
    rw [hne]
    refine bind_eq_error.mpr (.inr ⟨(), hok, bind_eq_error.mpr (.inr ⟨alg, halg, ?_⟩)⟩)
    rw [hv]
    rfl

theorem Assertion.verify_eq_fault {material : KeyMaterial} :
    verify t material allowed = .error (.fault e) ↔ t.checkAttached = .ok () ∧
      ∃ alg f, t.algorithm allowed = .ok alg ∧
        alg.verify material t.input t.signature = .error f ∧ f.toFault? = some e := by
  constructor
  · intro h
    unfold verify at h
    split at h
    · cases h
    · next f hf =>
      obtain ⟨hok, alg, halg, hv⟩ := Compact.verifiedClaims_eq_key.mp hf
      split at h
      · next fault hfault =>
        refine ⟨hok, alg, f, halg, hv, ?_⟩
        rw [hfault, Failure.fault.inj (Except.error.inj h)]
      · cases h
    · cases h
  · rintro ⟨hok, alg, f, halg, hv, hfault⟩
    unfold verify
    rw [Compact.verifiedClaims_eq_key.mpr ⟨hok, alg, halg, hv⟩]
    dsimp only
    rw [hfault]

theorem Assertion.verify_refuses {f : Failure} (hp : key.material.IsTame)
    (h : verify t key.material allowed = .error f) : ∃ r, f = .refusal r := by
  cases f with
  | refusal r => exact ⟨r, rfl⟩
  | fault e =>
    obtain ⟨-, alg, f, -, hv, hfault⟩ := verify_eq_fault.mp h
    rw [Algorithm.toFault?_of_verify hp hv] at hfault
    cases hfault

theorem Algorithm.verify_rsaPrivate (alg : Algorithm) (pair : Crypto.Rsa.PrivateKey)
    (message signature : Bytes) : ∃ f, alg.verify (.rsaPrivate pair) message signature = .error f ∧
      (f.toFault? = some e ↔ alg.IsRsa ∧ e = ⟨.wrongObject, KeyFault.wrongHalf.message⟩) := by
  cases alg with
  | rsa h | rsaSalted h => exact ⟨.wrongHalf, rfl, by simp [KeyFault.toFault?, IsRsa, eq_comm]⟩
  | unsecured | hmac h | ecdsa h curve | edwards =>
    exact ⟨_, rfl, by simp [KeyFault.toFault?, IsRsa]⟩

theorem Assertion.verify_rsaPrivate (t : Compact) (allowed : List Text)
    (pair : Crypto.Rsa.PrivateKey) : verify t (.rsaPrivate pair) allowed = .error (.fault e) ↔
      t.checkAttached = .ok () ∧ (∃ alg, t.algorithm allowed = .ok alg ∧ alg.IsRsa) ∧
        e = ⟨.wrongObject, KeyFault.wrongHalf.message⟩ := by
  rw [verify_eq_fault]
  refine and_congr_right fun _ => ?_
  constructor
  · rintro ⟨alg, f, halg, hv, hfault⟩
    obtain ⟨f', hv', hiff⟩ := alg.verify_rsaPrivate (e := e) pair t.input t.signature
    obtain rfl := Except.error.inj (hv.symm.trans hv')
    obtain ⟨hrsa, he⟩ := hiff.mp hfault
    exact ⟨⟨alg, halg, hrsa⟩, he⟩
  · rintro ⟨⟨alg, halg, hrsa⟩, he⟩
    obtain ⟨f, hv, hiff⟩ := alg.verify_rsaPrivate (e := e) pair t.input t.signature
    exact ⟨alg, f, halg, hv, hiff.mpr ⟨hrsa, he⟩⟩

end Signatures

end AssertionGrant
