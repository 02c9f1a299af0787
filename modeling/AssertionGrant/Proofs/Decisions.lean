import AssertionGrant.Proofs.Undisturbed

/-! What a row of steps decides. A step decides a property at a site if, from every site that is
steady with it, it gives exactly the results that have the property and leaves the site steady.
What a row of such steps gives has the properties of all of them. -/

namespace AssertionGrant

namespace Act

variable {α β : Type} {s₀ : Site} {x : Act α}

structure Decides (x : Act α) (s₀ : Site) (P : α → Prop) : Prop where
  gives : ∀ s a, Site.Steady s₀ s → ((∃ s', x.Gives s a s') ↔ P a)
  steady : ∀ s a s', Site.Steady s₀ s → x.Gives s a s' → Site.Steady s₀ s'

section Rows

theorem Decides.congr {P Q : α → Prop} (h : x.Decides s₀ P) (hPQ : ∀ a, P a ↔ Q a) :
    x.Decides s₀ Q where
  gives s a hs := (h.gives s a hs).trans (hPQ a)
  steady := h.steady

theorem decides_of_answers {r : Except Failure α}
    (h : ∀ s, Site.Steady s₀ s → x.Answers s r) : x.Decides s₀ fun a => r = .ok a where
  gives s a hs := by
    obtain ⟨s', e, -⟩ := h s hs
    unfold Gives
    rw [e]
    constructor
    · rintro ⟨_, h⟩
      exact (Prod.mk.inj h).1
    · rintro rfl
      exact ⟨s', rfl⟩
  steady s a s' hs hg := by
    obtain ⟨s₁, e, hs₁⟩ := h s hs
    obtain ⟨-, rfl⟩ := Prod.mk.inj (e.symm.trans hg)
    exact hs.trans hs₁

theorem Decides.bind_exists {ι : Type} {k : α → Act β} {P : ι → α → Prop} {Q : ι → α → β → Prop}
    (hx : x.Decides s₀ fun a => ∃ i, P i a) (hk : ∀ i a, P i a → (k a).Decides s₀ (Q i a)) :
    (x >>= k).Decides s₀ fun b => ∃ i a, P i a ∧ Q i a b where
  gives s b hs := by
    simp only [gives_bind]
    constructor
    · rintro ⟨s', a, s₁, h₁, h₂⟩
      obtain ⟨i, hp⟩ := (hx.gives s a hs).mp ⟨s₁, h₁⟩
      exact ⟨i, a, hp, ((hk i a hp).gives s₁ b (hx.steady s a s₁ hs h₁)).mp ⟨s', h₂⟩⟩
    · rintro ⟨i, a, hp, hq⟩
      obtain ⟨s₁, h₁⟩ := (hx.gives s a hs).mpr ⟨i, hp⟩
      obtain ⟨s', h₂⟩ := ((hk i a hp).gives s₁ b (hx.steady s a s₁ hs h₁)).mpr hq
      exact ⟨s', a, s₁, h₁, h₂⟩
  steady s b s' hs h := by
    obtain ⟨a, s₁, h₁, h₂⟩ := gives_bind.mp h
    have hs₁ := hx.steady s a s₁ hs h₁
    obtain ⟨i, hp⟩ := (hx.gives s a hs).mp ⟨s₁, h₁⟩
    exact (hk i a hp).steady s₁ b s' hs₁ h₂

theorem Decides.bind {k : α → Act β} {P : α → Prop} {Q : α → β → Prop} (hx : x.Decides s₀ P)
    (hk : ∀ a, P a → (k a).Decides s₀ (Q a)) :
    (x >>= k).Decides s₀ fun b => ∃ a, P a ∧ Q a b := by
  have hx : x.Decides s₀ fun a => ∃ _ : Unit, P a := hx.congr fun a => by rw [exists_const]
  exact (hx.bind_exists fun _ a hp => hk a hp).congr fun b => by rw [exists_const]

theorem Decides.seq {x : Act Unit} {k : Unit → Act β} {P : Prop} {Q : β → Prop}
    (hx : x.Decides s₀ fun _ => P) (hk : P → (k ()).Decides s₀ Q) :
    (x >>= k).Decides s₀ fun b => P ∧ Q b :=
  (hx.bind fun _ hp => hk hp).congr fun b => by simp only [exists_const]

theorem Decides.tryCatch {k : Failure → Act α} {P : α → Prop} (hx : x.Decides s₀ P)
    (hk : ∀ f s a s', ¬ (k f).Gives s a s') : (tryCatch x k).Decides s₀ P := by
  have h (s : Site) (a : α) (s' : Site) :
      (MonadExcept.tryCatch x k).Gives s a s' ↔ x.Gives s a s' := by
    refine gives_tryCatch.trans ⟨fun h => h.elim id ?_, .inl⟩
    rintro ⟨f, s₁, -, h⟩
    exact absurd h (hk f s₁ a s')
  constructor
  · intro s a hs
    simp only [h]
    exact hx.gives s a hs
  · intro s a s' hs hg
    exact hx.steady s a s' hs ((h s a s').mp hg)

end Rows

section Steps

theorem decides_pure (a : α) : (pure a : Act α).Decides s₀ fun b => a = b :=
  (decides_of_answers fun s _ => answers_pure a s).congr fun _ => by
    simp only [Except.ok.injEq]

theorem decides_throw (f : Failure) : (throw f : Act α).Decides s₀ fun _ => False :=
  (decides_of_answers fun s _ => answers_throw f s).congr fun _ => by
    simp only [reduceCtorEq]

theorem decides_orFail (r : Except Failure α) : (orFail r).Decides s₀ fun a => r = .ok a :=
  decides_of_answers fun s _ => answers_orFail r s

theorem decides_refusing (r : Except Refusal α) : (refusing r).Decides s₀ fun a => r = .ok a :=
  (decides_of_answers fun s _ => answers_refusing r s).congr fun _ => mapError_eq_ok

theorem decides_note (entry : LogEntry) : (note entry).Decides s₀ fun _ => True :=
  (decides_of_answers fun s _ => answers_note entry s).congr fun _ => by simp only

theorem decides_checkContext (hc : s₀.Calm) : checkContext.Decides s₀ fun _ => True :=
  (decides_of_answers fun _ hs => answers_checkContext (hs.calm hc).live).congr fun _ => by
    simp only

theorem Decides.now {k : Site → Act α} {P : α → Prop}
    (h : ∀ s, Site.Steady s₀ s → (k s).Decides s₀ P) : (get >>= k).Decides s₀ P where
  gives s a hs := by
    simp only [gives_bind, gives_get]
    constructor
    · rintro ⟨s', _, _, ⟨rfl, rfl⟩, hg⟩
      exact ((h s hs).gives s a hs).mp ⟨s', hg⟩
    · intro hp
      obtain ⟨s', hg⟩ := ((h s hs).gives s a hs).mpr hp
      exact ⟨s', s, s, ⟨rfl, rfl⟩, hg⟩
  steady s a s' hs hg := by
    obtain ⟨_, _, hget, hg⟩ := gives_bind.mp hg
    obtain ⟨rfl, rfl⟩ := gives_get.mp hget
    exact (h s hs).steady s a s' hs hg

end Steps

end Act

open Act

variable {s₀ s : Site} {roll : Roll}

theorem Site.Steady.holds_now (h : Site.Steady s₀ s) (hd : s₀.replays.Distinct) (jti : Text) :
    s.records.Holds s.now jti ↔ s₀.records.Holds s₀.now jti := by
  rw [h.now]
  exact (h.records hd).holds_now

theorem SingleUse.decides_isUsed (hc : s₀.Calm) (jti : Text) :
    (isUsed jti).Decides s₀ fun answer =>
      ∃ used : Bool, (used = true ↔ s₀.records.Holds s₀.now jti) ∧ .bool used = answer := by
  obtain ⟨used₀, hused₀, -⟩ := answers_isUsed hc jti
  have hlookUp : (Act.isUsed jti).Decides s₀ fun answer => .bool used₀ = answer := by
    refine (decides_of_answers (r := .ok (.bool used₀)) fun s hs => ?_).congr fun answer => by
      rw [Except.ok.injEq]
    obtain ⟨used, hused, h⟩ := answers_isUsed (hs.calm hc) jti
    have hsame : used = used₀ :=
      Bool.eq_iff_iff.mpr (hused.trans ((hs.holds_now hc.distinct jti).trans hused₀.symm))
    rwa [hsame] at h
  refine ((decides_checkContext hc).seq fun _ => hlookUp.tryCatch fun f s a s' => ?_).congr
    fun answer => ?_
  · cases f with
    | refusal r => exact gives_throw
    | fault f =>
      simp only [gives_bind, gives_throw, and_false, exists_false, not_false_eq_true]
  · rw [true_and]
    constructor
    · rintro rfl
      exact ⟨used₀, hused₀, rfl⟩
    · rintro ⟨used, hused, rfl⟩
      rw [Bool.eq_iff_iff.mpr (hused₀.trans hused.symm)]

/-- Claims are valid exactly when they keep the rules and their identifier is not in use. -/
theorem Claims.decides_validate (hc : s₀.Calm) (settings : Settings) (c : Claims) :
    (validate settings c s₀.now).Decides s₀ fun expiry =>
      c.Keep settings s₀.now expiry ∧ (c.jwtId ≠ [] → ¬ s₀.records.Holds s₀.now c.jwtId) := by
  have hkeep : (refusing ((checkStateless settings c s₀.now).mapError
      Violation.toRefusal)).Decides s₀ fun expiry => c.Keep settings s₀.now expiry :=
    (decides_refusing _).congr fun expiry => mapError_eq_ok.trans checkStateless_eq_ok
  refine (hkeep.bind (Q := fun expiry expiry' =>
    (c.jwtId ≠ [] → ¬ s₀.records.Holds s₀.now c.jwtId) ∧ expiry = expiry')
      fun expiry _ => ?_).congr fun expiry' => ?_
  · by_cases hid : c.jwtId = []
    · rw [hid]
      refine (decides_pure expiry).congr fun expiry' => ?_
      simp
    · have hne : c.jwtId.isEmpty = false := by simpa using hid
      rw [hne]
      refine ((decides_checkContext hc).seq fun _ =>
        (SingleUse.decides_isUsed hc c.jwtId).bind (Q := fun answer expiry' =>
          answer = .bool false ∧ expiry = expiry') fun answer hanswer => ?_).congr
            fun expiry' => ?_
      · obtain ⟨used, -, rfl⟩ := hanswer
        cases used
        · refine (decides_pure expiry).congr fun expiry' => ?_
          simp
        · refine ((decides_note _).seq fun _ => decides_throw _).congr fun expiry' => ?_
          simp
      · simp only [true_and]
        constructor
        · rintro ⟨_, ⟨used, hused, rfl⟩, hfalse, rfl⟩
          obtain rfl := Json.bool.inj hfalse
          exact ⟨fun _ h => Bool.false_ne_true (hused.mpr h), rfl⟩
        · rintro ⟨hfree, rfl⟩
          exact ⟨_, ⟨false, by simpa using hfree hid, rfl⟩, rfl, rfl⟩
  · constructor
    · rintro ⟨expiry, hkeep, hfree, rfl⟩
      exact ⟨hkeep, hfree⟩
    · rintro ⟨hkeep, hfree⟩
      exact ⟨expiry', hkeep, hfree, rfl⟩

end AssertionGrant
