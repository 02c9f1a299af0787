import AssertionGrant.Proofs.Decisions
import AssertionGrant.Proofs.Rolls

/-! What the look-up of a key decides at a calm site whose keys are on a roll: a key is found if
one on the roll signed the assertion, the one that the header names or else the first. -/

namespace AssertionGrant

theorem Act.decides_storage {α : Type} {s₀ : Site} {call : StorageCall}
    {disturbance : Disturbances → Option (Disturbance α)} {answer : Act α} {r : Except Failure α}
    (hc : s₀.Calm) (hd : disturbance {} = none)
    (h : ∀ s, Site.Steady s₀ s → answer.outcome s = (r, s)) :
    (Act.storage call disturbance answer).Decides s₀ fun a => r = .ok a := by
  refine decides_of_answers fun s hs => .storage ?_ fun s' hs' => ?_
  · rw [(hs.calm hc).undisturbed]
    exact hd
  · exact ⟨s', h s' (hs.trans hs'), .refl s'⟩

variable [Json.Nesting]

namespace Site

/-- A calm site with a store of public keys, whose roll is `roll`. -/
structure Stocked (s : Site) (roll : Roll) : Prop extends Calm s where
  filled : s.keys.Filled s.cache roll

variable {s s' : Site} {roll : Roll}

theorem Steady.stocked (h : Steady s s') (hs : s.Stocked roll) : s'.Stocked roll where
  toCalm := h.calm hs.toCalm
  filled := by
    have hserver := h.server hs.distinct
    have hfields : s'.cache.fields = s.cache.fields := congrArg (·.2.2) hserver
    rw [h.keys]
    exact .elsewhere hs.filled hfields

end Site

namespace Act

variable {s₀ s : Site} {roll : Roll} {issuer subject keyId : Text}

theorem outcome_storedKey (hs : s.Stocked roll) (issuer subject keyId : Text) :
    (storedKey issuer subject (.str keyId)).outcome s =
      match roll.find? s.keys.isShared issuer subject keyId with
      | some e => (.ok ⟨e.key.jwk, e.scopesJson⟩, s)
      | none => (.error (.fault (s.keys.absence issuer subject keyId)), s) := by
  have hfind := hs.filled.find hs.up issuer subject keyId
  unfold storedKey
  rw [outcome_bind, outcome_get]
  dsimp only
  rw [outcome_faulting, hfind]
  cases roll.find? s.keys.isShared issuer subject keyId <;> rfl

theorem decides_storedKey {α : Type} {call : StorageCall}
    {disturbance : Disturbances → Option (Disturbance α)} (part : KeyStore.Stored → α)
    (hs : s₀.Stocked roll) (hd : disturbance {} = none) (issuer subject keyId : Text) :
    (storage call disturbance (storedKey issuer subject (.str keyId) >>= fun stored =>
      pure (part stored))).Decides s₀ fun a =>
        ∃ e, roll.find? s₀.keys.isShared issuer subject keyId = some e ∧
          part ⟨e.key.jwk, e.scopesJson⟩ = a := by
  have hout (s : Site) (h : Site.Steady s₀ s) :=
    h.keys ▸ outcome_storedKey (h.stocked hs) issuer subject keyId
  cases he : roll.find? s₀.keys.isShared issuer subject keyId with
  | some e =>
    refine (decides_storage (r := .ok (part ⟨e.key.jwk, e.scopesJson⟩)) hs.toCalm hd
      fun s h => ?_).congr fun a => ?_
    · rw [outcome_bind, hout s h, he]
      rfl
    · simp only [Except.ok.injEq, Option.some.injEq, exists_eq_left']
  | none =>
    refine (decides_storage (r := .error (.fault (s₀.keys.absence issuer subject keyId))) hs.toCalm hd
      fun s h => ?_).congr fun a => ?_
    · rw [outcome_bind, hout s h, he]
    · simp only [reduceCtorEq, false_and, exists_false]

theorem decides_publicKey (hs : s₀.Stocked roll) (issuer subject keyId : Text) :
    (publicKey issuer subject keyId).Decides s₀ fun given =>
      ∃ e, roll.find? s₀.keys.isShared issuer subject keyId = some e ∧ some e.key.jwk = given :=
  decides_storedKey (fun stored => some stored.key) hs rfl issuer subject keyId

theorem decides_publicKeyScopes (hs : s₀.Stocked roll) (issuer subject keyId : Text) :
    (publicKeyScopes issuer subject (.str keyId)).Decides s₀ fun scopes =>
      ∃ e, roll.find? s₀.keys.isShared issuer subject keyId = some e ∧
        .arr e.scopesJson = scopes :=
  decides_storedKey (fun stored => Json.arr stored.scopes) hs rfl issuer subject keyId

theorem decides_publicKeys (hs : s₀.Stocked roll) (issuer subject : Text) :
    (publicKeys issuer subject).Decides s₀ fun given =>
      some ((roll.listing s₀.keys.isShared issuer subject).map fun e => some e.key.jwk) = given := by
  refine (decides_storage
    (r := .ok (some ((roll.listing s₀.keys.isShared issuer subject).map fun e => some e.key.jwk)))
    hs.toCalm rfl fun s h => ?_).congr fun given => ?_
  · have hst := h.stocked hs
    have hlist := hst.filled.list hst.up issuer subject
    rw [outcome_bind, outcome_get]
    dsimp only
    rw [outcome_bind, outcome_faulting, hlist, h.keys]
    simp only [Except.mapError, outcome_pure, List.map_map]
    rfl
  · rw [Except.ok.injEq]

end Act

def Compact.FirstSigner (t : Compact) (allowed : List Text) (entries : List Entry)
    (e : Entry) : Prop :=
  ∃ before after, entries = before ++ e :: after ∧ t.SignedBy allowed e.key.jwk ∧
    ∀ d ∈ before, ¬ t.SignedBy allowed d.key.jwk

def Roll.Signer (roll : Roll) (shared : Bool) (t : Compact) (allowed : List Text)
    (issuer subject : Text) (e : Entry) : Prop :=
  if Assertion.keyId t = [] then t.FirstSigner allowed (roll.listing shared issuer subject) e
  else roll.find? shared issuer subject (Assertion.keyId t) = some e ∧
    t.SignedBy allowed e.key.jwk

section Signers

variable {t : Compact} {allowed : List Text} {roll : Roll} {shared : Bool}
  {issuer subject : Text} {e d : Entry} {entries : List Entry}

theorem Compact.firstSigner_cons :
    t.FirstSigner allowed (d :: entries) e ↔ t.SignedBy allowed d.key.jwk ∧ d = e ∨
      ¬ t.SignedBy allowed d.key.jwk ∧ t.FirstSigner allowed entries e := by
  constructor
  · rintro ⟨before, after, heq, hsigned, hbefore⟩
    cases before with
    | nil =>
      obtain ⟨rfl, rfl⟩ := List.cons.inj heq
      exact .inl ⟨hsigned, rfl⟩
    | cons c before =>
      obtain ⟨rfl, rfl⟩ := List.cons.inj heq
      obtain ⟨hd, hbefore⟩ := List.forall_mem_cons.mp hbefore
      exact .inr ⟨hd, before, after, rfl, hsigned, hbefore⟩
  · rintro (⟨hsigned, rfl⟩ | ⟨hd, before, after, rfl, hsigned, hbefore⟩)
    · exact ⟨[], entries, rfl, hsigned, nofun⟩
    · exact ⟨d :: before, after, rfl, hsigned, List.forall_mem_cons.mpr ⟨hd, hbefore⟩⟩

theorem Roll.Signer.mem (h : roll.Signer shared t allowed issuer subject e) :
    e ∈ roll ∧ e.isFor shared issuer subject = true := by
  unfold Signer at h
  split at h
  · obtain ⟨before, after, heq, -, -⟩ := h
    exact mem_listing (heq ▸ List.mem_append_right _ List.mem_cons_self)
  · have hat := List.find?_some h.1
    exact ⟨List.mem_of_find?_eq_some h.1, (Bool.and_eq_true_iff.mp hat).1⟩

end Signers

namespace Signer
open Act

variable {s₀ : Site} {roll : Roll} {t : Compact} {allowed : List Text} {issuer subject : Text}
  {fields : Fields}

/-- A public key verifies an assertion that can be read, or is a reason to refuse it. -/
theorem verify_cases (hclaims : t.unverifiedClaims = .ok fields) (allowed : List Text)
    (key : PublicKey) :
    t.SignedBy allowed key.jwk ∧ Assertion.verify t key.jwk.material allowed = .ok fields ∨
      ¬ t.SignedBy allowed key.jwk ∧
        ∃ r, Assertion.verify t key.jwk.material allowed = .error (.refusal r) := by
  cases hv : Assertion.verify t key.jwk.material allowed with
  | ok fields' =>
    obtain ⟨hsigned, hread⟩ := Assertion.verify_eq_ok.mp hv
    rw [hclaims] at hread
    obtain rfl := Except.ok.inj hread
    exact .inl ⟨hsigned, rfl⟩
  | error f =>
    obtain ⟨r, rfl⟩ := Assertion.verify_refuses key.isPublic.isTame hv
    refine .inr ⟨fun hsigned => ?_, r, rfl⟩
    rw [Assertion.verify_eq_ok.mpr ⟨hsigned, hclaims⟩] at hv
    cases hv

theorem decides_firstVerifying (hc : s₀.Calm) (hclaims : t.unverifiedClaims = .ok fields)
    (entries : List Entry) :
    (firstVerifying t allowed issuer subject (entries.map fun e => some e.key.jwk)).Decides s₀
      fun found => ∃ e, t.FirstSigner allowed entries e ∧ (e.key.jwk, fields) = found := by
  induction entries with
  | nil =>
    refine (decides_throw _).congr fun found => ?_
    simp [Compact.FirstSigner]
  | cons d entries ih =>
    refine ((decides_checkContext hc).seq (Q := fun found => ∃ e,
      t.FirstSigner allowed (d :: entries) e ∧ (e.key.jwk, fields) = found) fun _ => ?_).congr
        fun found => by rw [true_and]
    simp only [Compact.firstSigner_cons]
    rcases verify_cases hclaims allowed d.key with ⟨hd, hv⟩ | ⟨hd, r, hv⟩
    · rw [hv]
      dsimp only
      refine ((decides_note _).seq fun _ => decides_pure (d.key.jwk, fields)).congr fun found => ?_
      simp [hd]
    · rw [hv]
      refine ih.congr fun found => ?_
      simp [hd]

theorem decides_findNamed (hs : s₀.Stocked roll) (hclaims : t.unverifiedClaims = .ok fields)
    (keyId : Text) :
    (findNamed t allowed issuer subject keyId).Decides s₀ fun found =>
      ∃ e, (roll.find? s₀.keys.isShared issuer subject keyId = some e ∧ t.SignedBy allowed e.key.jwk) ∧
        (e.key.jwk, fields) = found := by
  have hfound : (tryCatch (Act.publicKey issuer subject keyId)
      (lookupFailed issuer subject (.keyMissing issuer subject keyId))).Decides s₀ _ :=
    (decides_publicKey hs issuer subject keyId).tryCatch fun _ _ _ _ => lookupFailed_not_gives
  refine ((decides_checkContext hs.toCalm).seq fun _ => hfound.bind_exists
    (Q := fun e _ found => t.SignedBy allowed e.key.jwk ∧ (e.key.jwk, fields) = found)
      fun e given hgiven => ?_).congr fun found => ?_
  · obtain ⟨-, rfl⟩ := hgiven
    refine ((decides_checkContext hs.toCalm).seq (Q := fun found =>
      t.SignedBy allowed e.key.jwk ∧ (e.key.jwk, fields) = found) fun _ => ?_).congr
        fun found => by rw [true_and]
    dsimp only
    rcases verify_cases hclaims allowed e.key with ⟨hd, hv⟩ | ⟨hd, r, hv⟩
    · rw [hv]
      refine (decides_pure (e.key.jwk, fields)).congr fun found => ?_
      simp [hd]
    · rw [hv]
      refine ((decides_note _).seq fun _ => decides_throw _).congr fun found => ?_
      simp [hd]
  · simp only [true_and, and_assoc, exists_and_left, exists_eq_left']

theorem decides_find (hs : s₀.Stocked roll) (hclaims : t.unverifiedClaims = .ok fields) :
    (find t allowed issuer subject).Decides s₀ fun found =>
      ∃ e, roll.Signer s₀.keys.isShared t allowed issuer subject e ∧ (e.key.jwk, fields) = found := by
  unfold find Roll.Signer
  dsimp only
  by_cases hid : Assertion.keyId t = []
  · have hlisted : (tryCatch (Act.publicKeys issuer subject)
        (lookupFailed issuer subject (.listingFailed issuer subject))).Decides s₀ _ :=
      (decides_publicKeys hs issuer subject).tryCatch fun _ _ _ _ => lookupFailed_not_gives
    simp only [if_pos hid]
    rw [hid]
    refine ((decides_checkContext hs.toCalm).seq fun _ => hlisted.bind (Q := fun _ found => ∃ e,
      t.FirstSigner allowed (roll.listing s₀.keys.isShared issuer subject) e ∧
        (e.key.jwk, fields) = found) fun given hgiven => ?_).congr fun found => ?_
    · obtain rfl := hgiven
      exact decides_firstVerifying hs.toCalm hclaims _
    · simp only [true_and, exists_eq_left']
  · have hne : (Assertion.keyId t).isEmpty = false := by simpa using hid
    simp only [if_neg hid]
    rw [hne]
    exact decides_findNamed hs hclaims _

end Signer
end AssertionGrant
