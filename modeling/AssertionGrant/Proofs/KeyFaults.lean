import AssertionGrant.Proofs.Steps

/-! Why fields are no key. The readers of the numbers of a key blame nothing but the fields. Beside
them a key can be of no known kind or of an algorithm that has no keys, which is a fault of its own,
or it can be deficient: its algorithm is named by a list or an object, or its secret is not there. -/

namespace AssertionGrant.Jwk

def MalformedOnly {α : Type} (x : Except Fault α) : Prop :=
  ∀ f, x = .error f → ∃ why, f = .malformed why

namespace MalformedOnly

variable {α β : Type}

theorem ok (a : α) : MalformedOnly (.ok a) := nofun

theorem error (why : String) : MalformedOnly (α := α) (.error (.malformed why)) := by
  rintro f ⟨⟩
  exact ⟨why, rfl⟩

theorem bind {x : Except Fault α} {k : α → Except Fault β} (hx : MalformedOnly x)
    (hk : ∀ a, MalformedOnly (k a)) : MalformedOnly (x >>= k) := by
  intro f h
  rcases bind_eq_error.mp h with h | ⟨a, -, h⟩
  · exact hx f h
  · exact hk a f h

theorem map {x : Except Fault α} (hx : MalformedOnly x) (k : α → β) : MalformedOnly (x.map k) := by
  cases x with
  | ok a => exact ok (k a)
  | error f =>
    obtain ⟨why, rfl⟩ := hx f rfl
    exact error why

theorem guarded {c : Prop} [Decidable c] {why : String} {k : PUnit → Except Fault α}
    (hk : ∀ u, MalformedOnly (k u)) :
    MalformedOnly (if c then throw (.malformed why) >>= k else k ⟨⟩) := by
  split
  · exact bind (error why) hk
  · exact hk ⟨⟩

variable (fields : Fields) (name : String)

theorem orMalformed (a : Option α) : MalformedOnly (orMalformed name a) := by
  cases a with
  | some a => exact ok a
  | none => exact error name

theorem bytesOf : MalformedOnly (bytesOf fields name) := by
  unfold Jwk.bytesOf
  split
  · split
    · exact ok _
    · exact error name
  · exact error name

theorem numberOf : MalformedOnly (numberOf fields name) := (bytesOf fields name).map _

theorem requireKind (kind : Text) : MalformedOnly (requireKind fields kind) := by
  unfold Jwk.requireKind
  split
  · exact ok ()
  · exact error "kty"

theorem curveOf : MalformedOnly (curveOf fields) := by
  unfold Jwk.curveOf
  dsimp only
  repeat' split
  all_goals first | exact ok _ | exact error "crv"

theorem readFactors : MalformedOnly (readFactors fields) :=
  .bind (orMalformed _ _) fun _ => .bind (numberOf _ _) fun _ => .bind (numberOf _ _) fun _ =>
    .bind (numberOf _ _) fun _ => .bind (numberOf _ _) fun _ => .bind (numberOf _ _) fun _ => ok _

theorem readRsa : MalformedOnly (readRsa fields) := by
  unfold Jwk.readRsa
  refine .bind (requireKind _ _) fun _ => .bind (numberOf _ _) fun n =>
    .bind (numberOf _ _) fun e => ?_
  split
  · exact orMalformed _ _
  · refine .guarded fun _ => .bind (numberOf _ _) fun d => ?_
    dsimp only
    split
    · exact .bind (readFactors _) fun _ => orMalformed _ _
    · exact .bind (orMalformed _ _) fun _ => orMalformed _ _

theorem readEc : MalformedOnly (readEc fields) := by
  unfold Jwk.readEc
  refine .bind (requireKind _ _) fun _ => .bind (bytesOf _ _) fun xs => .bind (bytesOf _ _) fun ys =>
    .bind (curveOf _) fun curve => .guarded fun _ => .guarded fun _ => ?_
  split
  · exact .bind (bytesOf _ _) fun ds => .guarded fun _ => orMalformed _ _
  · exact ok _

theorem readEdwards : MalformedOnly (readEdwards fields) := by
  unfold Jwk.readEdwards
  refine .bind (requireKind _ _) fun _ => .guarded fun _ => .bind (bytesOf _ _) fun point => ?_
  split
  · exact .bind (bytesOf _ _) fun seed => .guarded fun _ => .guarded fun _ => ok _
  · exact .guarded fun _ => ok _

end MalformedOnly

def Fault.isDeficiency : Fault → Bool
  | .missing _ | .incomparable => true
  | _ => false

inductive Deficient (fields : Fields) : Prop
  | incomparable (v : Json) (kind : isPresent (fields.get? "kty") = true)
      (named : fields.get? "alg" = some v) (truthy : v.isTruthy = true)
      (container : v.isContainer = true)
  | secretless (kind : isText (fields.get? "kty") "oct" = true) (lacking : fields.has "k" = false)
      (hmac : ∀ v, fields.get? "alg" = some v → v.isTruthy = true →
        ∃ name hash, v = .str name ∧ Algorithm.ofName? name = some (.hmac hash))

variable {fields : Fields} {f : Fault}

theorem MalformedOnly.not_isDeficiency {α : Type} {x : Except Fault α} (hx : MalformedOnly x)
    (h : x = .error f) : f.isDeficiency = false := by
  obtain ⟨why, rfl⟩ := hx f h
  rfl

theorem isText_iff {v : Option Json} {s : Text} : isText v s = true ↔ v = some (.str s) := by
  unfold isText
  split
  · simp
  · next h => exact iff_of_false nofun fun e => h s e

section Algorithm

theorem algorithmName_cases (fields : Fields) :
    (∀ v, fields.get? "alg" = some v → v.isTruthy = false) ∧
        algorithmName fields = impliedAlgorithm fields ∨
      ∃ v, fields.get? "alg" = some v ∧ v.isTruthy = true ∧
        ((∃ name, v = .str name ∧ algorithmName fields = .ok name) ∨
          (∀ name, v ≠ .str name) ∧ algorithmName fields =
            .error (if v.isContainer then .incomparable else .unknownAlgorithm)) := by
  unfold algorithmName
  cases hv : fields.get? "alg" with
  | none => exact .inl ⟨nofun, rfl⟩
  | some v =>
    have hunique : ∀ w, some v = some w → v.isTruthy = false → w.isTruthy = false := by
      rintro w ⟨⟩ h
      exact h
    cases htruthy : v.isTruthy with
    | false =>
      refine .inl ⟨fun w hw => hunique w hw htruthy, ?_⟩
      split
      · next name e =>
        obtain rfl := Option.some.inj e
        have hname : name = [] := by simpa [Json.isTruthy] using htruthy
        rw [hname]
        rfl
      · next w _ e =>
        rw [hunique w e htruthy]
        rfl
      · rfl
    | true =>
      refine .inr ⟨v, rfl, htruthy, ?_⟩
      split
      · next name e =>
        obtain rfl := Option.some.inj e
        have hname : name.isEmpty = false := by
          simpa [Json.isTruthy] using htruthy
        rw [hname]
        exact .inl ⟨name, rfl, rfl⟩
      · next w hw e =>
        obtain rfl := Option.some.inj e
        refine .inr ⟨hw, ?_⟩
        rw [htruthy]
        cases v.isContainer <;> rfl
      · next e => cases e

theorem impliedAlgorithm_not_isDeficiency (h : impliedAlgorithm fields = .error f) :
    f.isDeficiency = false := by
  unfold impliedAlgorithm at h
  dsimp only at h
  repeat' split at h
  all_goals cases h
  all_goals rfl

theorem impliedAlgorithm_of_secret (h : isText (fields.get? "kty") "oct" = true) :
    impliedAlgorithm fields = .ok "HS256" := by
  unfold impliedAlgorithm
  rw [isText_iff.mp h]
  rfl

theorem algorithmName_eq_deficiency (h : algorithmName fields = .error f)
    (hf : f.isDeficiency = true) :
    ∃ v, fields.get? "alg" = some v ∧ v.isTruthy = true ∧ v.isContainer = true := by
  rcases algorithmName_cases fields with ⟨-, e⟩ | ⟨v, hv, htruthy, ⟨name, -, e⟩ | ⟨-, e⟩⟩
  · rw [impliedAlgorithm_not_isDeficiency (e.symm.trans h)] at hf
    cases hf
  · cases e.symm.trans h
  · obtain rfl := Except.error.inj (e.symm.trans h)
    refine ⟨v, hv, htruthy, ?_⟩
    cases hcontainer : v.isContainer with
    | true => rfl
    | false =>
      rw [hcontainer] at hf
      cases hf

theorem eq_str_of_algorithmName {name : Text} {v : Json} (h : algorithmName fields = .ok name)
    (hv : fields.get? "alg" = some v) (htruthy : v.isTruthy = true) : v = .str name := by
  rcases algorithmName_cases fields with ⟨hunnamed, -⟩ | ⟨w, hw, -, ⟨t, rfl, e⟩ | ⟨-, e⟩⟩
  · rw [hunnamed v hv] at htruthy
    cases htruthy
  · rw [Except.ok.inj (h.symm.trans e), Option.some.inj (hv.symm.trans hw)]
  · cases h.symm.trans e

end Algorithm

section Material

theorem readSecret_eq_deficiency (h : readSecret fields = .error f) (hf : f.isDeficiency = true) :
    isText (fields.get? "kty") "oct" = true ∧ fields.has "k" = false := by
  cases hkind : isText (fields.get? "kty") "oct" with
  | false =>
    unfold readSecret requireKind at h
    rw [hkind] at h
    cases h
    cases hf
  | true =>
    refine ⟨rfl, ?_⟩
    cases hk : fields.has "k" with
    | false => rfl
    | true =>
      have hread : MalformedOnly (readSecret fields) := by
        unfold readSecret
        rw [hk]
        exact .bind (.requireKind _ _) fun _ => .bind (.bytesOf _ _) fun _ =>
          .guarded fun _ => .ok _
      rw [hread.not_isDeficiency h] at hf
      cases hf

theorem readSecret_of_secretless (hkind : isText (fields.get? "kty") "oct" = true)
    (hk : fields.has "k" = false) : readSecret fields = .error (.missing "k") := by
  unfold readSecret requireKind
  rw [if_pos hkind, hk]
  rfl

theorem readMaterial_of_kind (h : isPresent (fields.get? "kty") = true) :
    readMaterial fields = algorithmName fields >>= fun name =>
      match Algorithm.ofName? name with
      | none => throw .unknownAlgorithm
      | some .unsecured => throw .unsecured
      | some (.hmac _) => readSecret fields
      | some (.rsa _) | some (.rsaSalted _) => readRsa fields
      | some (.ecdsa _ _) => readEc fields
      | some .edwards => readEdwards fields := by
  unfold readMaterial
  rw [h]
  rfl

theorem readMaterial_eq_deficiency (h : readMaterial fields = .error f)
    (hf : f.isDeficiency = true) : Deficient fields := by
  have hkind : isPresent (fields.get? "kty") = true := by
    cases hkind : isPresent (fields.get? "kty") with
    | true => rfl
    | false =>
      unfold readMaterial at h
      rw [hkind] at h
      cases h
      cases hf
  rw [readMaterial_of_kind hkind] at h
  rcases bind_eq_error.mp h with h | ⟨name, hname, h⟩
  · obtain ⟨v, hv, htruthy, hcontainer⟩ := algorithmName_eq_deficiency h hf
    exact .incomparable v hkind hv htruthy hcontainer
  · split at h
    · cases h
      cases hf
    · cases h
      cases hf
    · next hash hhash =>
      obtain ⟨hoct, hk⟩ := readSecret_eq_deficiency h hf
      exact .secretless hoct hk fun v hv htruthy =>
        ⟨name, hash, eq_str_of_algorithmName hname hv htruthy, hhash⟩
    · rw [(MalformedOnly.readRsa fields).not_isDeficiency h] at hf
      cases hf
    · rw [(MalformedOnly.readRsa fields).not_isDeficiency h] at hf
      cases hf
    · rw [(MalformedOnly.readEc fields).not_isDeficiency h] at hf
      cases hf
    · rw [(MalformedOnly.readEdwards fields).not_isDeficiency h] at hf
      cases hf

theorem Deficient.readMaterial (h : Deficient fields) :
    ∃ f, Jwk.readMaterial fields = .error f ∧ f.isDeficiency = true := by
  cases h with
  | incomparable v kind named truthy container =>
    have hname : algorithmName fields = .error .incomparable := by
      rcases algorithmName_cases fields with ⟨hunnamed, -⟩ | ⟨w, hw, -, hcase⟩
      · rw [hunnamed v named] at truthy
        cases truthy
      · obtain rfl := Option.some.inj (named.symm.trans hw)
        rcases hcase with ⟨name, rfl, -⟩ | ⟨-, e⟩
        · cases container
        · rw [e, container]
          rfl
    refine ⟨.incomparable, ?_, rfl⟩
    rw [readMaterial_of_kind kind, hname]
    rfl
  | secretless kind lacking hmac =>
    have hkind : isPresent (fields.get? "kty") = true := by
      rw [isText_iff.mp kind]
      rfl
    have hname : ∃ name hash, algorithmName fields = .ok name ∧
        Algorithm.ofName? name = some (.hmac hash) := by
      rcases algorithmName_cases fields with ⟨-, e⟩ | ⟨v, hv, htruthy, hcase⟩
      · exact ⟨"HS256", .sha256, e.trans (impliedAlgorithm_of_secret kind), rfl⟩
      · obtain ⟨name, hash, rfl, hhash⟩ := hmac v hv htruthy
        rcases hcase with ⟨_, ⟨⟩, e⟩ | ⟨htext, -⟩
        · exact ⟨name, hash, e, hhash⟩
        · exact absurd rfl (htext name)
    obtain ⟨name, hash, hname, hhash⟩ := hname
    refine ⟨.missing "k", ?_, rfl⟩
    rw [readMaterial_of_kind hkind]
    refine bind_eq_error.mpr (.inr ⟨name, hname, ?_⟩)
    rw [hhash]
    exact readSecret_of_secretless kind lacking

theorem deficient_iff :
    Deficient fields ↔ ∃ f, readMaterial fields = .error f ∧ f.isDeficiency = true :=
  ⟨Deficient.readMaterial, fun ⟨_, h, hf⟩ => readMaterial_eq_deficiency h hf⟩

theorem not_isDeficiency_of_not_deficient (h : readMaterial fields = .error f)
    (hd : ¬ Deficient fields) : f.isDeficiency = false :=
  Bool.eq_false_iff.mpr fun hf => hd (readMaterial_eq_deficiency h hf)

theorem ofJson_of_fault (h : readMaterial fields = .error f) : ofJson (.obj fields) = .error f := by
  unfold ofJson
  dsimp only
  rw [h]
  rfl

end Material

end AssertionGrant.Jwk
