import AssertionGrant.Claims.Rules
import AssertionGrant.Scope
import AssertionGrant.Proofs.Steps

/-! The rules for claims and for requested scopes, each as what it asks for: a check passes exactly
when all that it asks for is there. -/

namespace AssertionGrant

namespace Claims

/-- Claims that keep the rules at `now` and expire at `expiry`. -/
structure Keep (settings : Settings) (now : Instant) (c : Claims) (expiry : Instant) : Prop where
  audience : settings.tokenUrl ∈ c.audience
  expires : c.expiresAt = some expiry
  unexpired : now.micros < expiry.micros
  begun : ∀ notBefore, c.notBefore = some notBefore → notBefore.micros < now.micros
  issued : settings.issuedAtOptional = true ∨ c.issuedAt.isSome = true
  brief : expiry.micros - (c.issuedAt.getD now).micros ≤ settings.maxDuration.micros
  named : settings.jwtIdOptional = true ∨ c.jwtId ≠ []

variable {settings : Settings} {c : Claims} {now expiry : Instant}

theorem checkAudience_eq_ok {u : Unit} :
    checkAudience settings c = .ok u ↔ settings.tokenUrl ∈ c.audience := by
  unfold checkAudience
  split
  · next h => simp [List.isEmpty_iff.mp h]
  · split
    · next h => simpa using h
    · next h => simpa using h

theorem checkDates_eq_ok :
    checkDates c now = .ok expiry ↔ c.expiresAt = some expiry ∧ now.micros < expiry.micros ∧
      ∀ notBefore, c.notBefore = some notBefore → notBefore.micros < now.micros := by
  unfold checkDates
  cases c.expiresAt with
  | none => simp
  | some expiresAt =>
    dsimp only
    rw [Option.some.injEq]
    split
    · next h =>
      simp only [reduceCtorEq, false_iff, not_and]
      rintro rfl hlt
      omega
    · next h =>
      cases c.notBefore with
      | none =>
        simp only [Except.ok.injEq, reduceCtorEq, false_implies, implies_true, and_true]
        exact ⟨fun e => ⟨e, e ▸ Int.not_le.mp h⟩, And.left⟩
      | some notBefore =>
        simp only [Option.some.injEq, forall_eq']
        split
        · next hn =>
          simp only [reduceCtorEq, false_iff, not_and]
          omega
        · next hn =>
          rw [Except.ok.injEq]
          exact ⟨fun e => ⟨e, e ▸ Int.not_le.mp h, Int.not_le.mp hn⟩, And.left⟩

theorem checkLifetime_eq_ok {u : Unit} :
    checkLifetime settings c now expiry = .ok u ↔
      (settings.issuedAtOptional = true ∨ c.issuedAt.isSome = true) ∧
        expiry.micros - (c.issuedAt.getD now).micros ≤ settings.maxDuration.micros := by
  unfold checkLifetime Instant.since
  dsimp only
  split
  · next h =>
    have h : settings.issuedAtOptional = false ∧ c.issuedAt = none := by simpa using h
    simp [h.1, h.2]
  · next h =>
    have hissued : settings.issuedAtOptional = true ∨ c.issuedAt.isSome = true := by
      cases ho : settings.issuedAtOptional
      · right
        cases hi : c.issuedAt
        · rw [ho, hi] at h
          exact absurd rfl h
        · rfl
      · exact .inl rfl
    simp only [hissued, true_and]
    split
    · next hlt => simp only [reduceCtorEq, false_iff, Int.not_le, hlt]
    · next hlt => simp only [Int.not_lt.mp hlt]

theorem checkJwtId_eq_ok {u : Unit} :
    checkJwtId settings c = .ok u ↔ settings.jwtIdOptional = true ∨ c.jwtId ≠ [] := by
  unfold checkJwtId
  split
  · next h =>
    have h : settings.jwtIdOptional = false ∧ c.jwtId = [] := by simpa using h
    simp [h.1, h.2]
  · next h =>
    simp only [true_iff]
    cases ho : settings.jwtIdOptional
    · right
      rw [ho] at h
      simpa using h
    · exact .inl rfl

theorem checkStateless_eq_ok :
    checkStateless settings c now = .ok expiry ↔ c.Keep settings now expiry := by
  constructor
  · intro h
    obtain ⟨_, haudience, h⟩ := bind_eq_ok.mp h
    obtain ⟨expiresAt, hdates, h⟩ := bind_eq_ok.mp h
    obtain ⟨_, hlifetime, h⟩ := bind_eq_ok.mp h
    obtain ⟨_, hid, h⟩ := bind_eq_ok.mp h
    obtain rfl := Except.ok.inj h
    obtain ⟨hexpires, hunexpired, hbegun⟩ := checkDates_eq_ok.mp hdates
    obtain ⟨hissued, hbrief⟩ := checkLifetime_eq_ok.mp hlifetime
    exact ⟨checkAudience_eq_ok.mp haudience, hexpires, hunexpired, hbegun, hissued, hbrief,
      checkJwtId_eq_ok.mp hid⟩
  · intro h
    refine bind_eq_ok.mpr ⟨(), checkAudience_eq_ok.mpr h.audience, ?_⟩
    refine bind_eq_ok.mpr ⟨expiry, checkDates_eq_ok.mpr ⟨h.expires, h.unexpired, h.begun⟩, ?_⟩
    refine bind_eq_ok.mpr ⟨(), checkLifetime_eq_ok.mpr ⟨h.issued, h.brief⟩, ?_⟩
    exact bind_eq_ok.mpr ⟨(), checkJwtId_eq_ok.mpr h.named, rfl⟩

end Claims

theorem Scope.authorize_eq_ok {rule : Rule} {registered : Json} {requested : List Text}
    {issuer subject : Text} {u : Unit} :
    authorize rule registered requested issuer subject = .ok u ↔
      ∀ scope ∈ requested, rule registered scope = .ok true := by
  unfold authorize
  rw [List.forM_eq_forM]
  induction requested with
  | nil => simp [pure, Except.pure]
  | cons scope requested ih =>
    rw [List.forM_cons, List.forall_mem_cons, bind_eq_ok, ← ih]
    constructor
    · rintro ⟨_, h, hrest⟩
      obtain ⟨covered, hrule, h⟩ := bind_eq_ok.mp h
      cases covered
      · cases h
      · exact ⟨hrule, hrest⟩
    · rintro ⟨hrule, hrest⟩
      exact ⟨(), bind_eq_ok.mpr ⟨true, hrule, rfl⟩, hrest⟩

end AssertionGrant
