import AssertionGrant.Proofs.Gates

/-! What the first phase makes of a request: it fails before anything is marked, or it marks the
identifier of the assertion and then fails or accepts the request. -/

namespace AssertionGrant

def Session.failure? (s : Session) : Option Failure := s.expiryFailure.or s.subjectFailure

namespace Grant
open Act

def conclude (g : Grant) (r : AccessRequest) :
    Except Failure (Claims × Session) → StateM Site Handled
  | .error f => do
    noteAll (failureEntry r f).toList
    pure ⟨r, .error f⟩
  | .ok (c, session) => do
    let handled := g.settle r c session (← get).now
    match handled.result with
    | .error f => do
      noteAll (failureEntry r f).toList
      pure handled
    | .ok () => do
      noteAll [.grantAccepted r.id (r.client.map (·.id)) c.issuer c.subject
        handled.request.grantedScopes]
      pure handled

theorem conclude_error (g : Grant) (r : AccessRequest) (f : Failure) (s : Site) :
    ∃ log, (g.conclude r (.error f)).run s = (⟨r, .error f⟩, { s with log }) := ⟨_, rfl⟩

theorem conclude_ok (g : Grant) (r : AccessRequest) (c : Claims) (session : Session) (s : Site) :
    ∃ log, (g.conclude r (.ok (c, session))).run s =
      (g.settle r c session s.now, { s with log }) := by
  have run : (g.conclude r (.ok (c, session))).run s =
      (match (g.settle r c session s.now).result with
      | .error f => do
        noteAll (failureEntry r f).toList
        pure (g.settle r c session s.now)
      | .ok () => do
        noteAll [.grantAccepted r.id (r.client.map (·.id)) c.issuer c.subject
          (g.settle r c session s.now).request.grantedScopes]
        pure (g.settle r c session s.now) : StateM Site Handled).run s := rfl
  rw [run]
  split <;> exact ⟨_, rfl⟩

theorem of_settle_ok {g : Grant} {r : AccessRequest} {c : Claims} {session : Session} {now : Instant}
    (h : (g.settle r c session now).result = .ok ()) :
    ∃ expiry, g.expiryAt r now = some expiry ∧
      (g.settle r c session now).request = { granting r c with
        session := some { session with
          expiries := session.expiries.map (·.put accessToken expiry), subject := c.subject } } := by
  unfold settle at h ⊢
  cases he : g.expiryAt r now with
  | none =>
    rw [he] at h
    cases h
  | some expiry =>
    simp only [he, Session.setExpiry] at h ⊢
    cases hdated : session.expiryFailure with
    | some f =>
      rw [hdated] at h
      cases h
    | none =>
      simp only [hdated, Session.setSubject] at h ⊢
      cases hnamed : session.subjectFailure with
      | some f =>
        rw [hnamed] at h
        cases h
      | none => exact ⟨expiry, rfl, rfl⟩

theorem settle_eq_error {g : Grant} {r : AccessRequest} {c : Claims} {session : Session}
    {now : Instant} {f : Failure} : (g.settle r c session now).result = .error f ↔
      g.expiryAt r now = none ∧ f = .fault Issuer.beyondCalendar ∨
        (g.expiryAt r now).isSome = true ∧ session.failure? = some f := by
  unfold settle Session.failure? Session.setExpiry Session.setSubject
  cases g.expiryAt r now with
  | none => simp [eq_comm]
  | some expiry =>
    cases hexpiry : session.expiryFailure with
    | some f' => simp
    | none =>
      cases session.subjectFailure <;> simp

variable [Json.Nesting] {g : Grant} {r : AccessRequest} {s s' : Site} {c : Claims} {f : Failure}

/-- The gates up to the mark of the identifier, which comes last. -/
def clear (g : Grant) (r : AccessRequest) : Act Claims := do
  Act.orFail (g.screen r)
  let raw ← Act.orFail (assertionOf r)
  let (claims, keyId, expiresAt) ← g.verifiedClaims raw
  g.authorize r claims keyId
  if !claims.jwtId.isEmpty then SingleUse.mark claims.jwtId expiresAt
  pure claims

theorem approve_eq (g : Grant) (r : AccessRequest) :
    g.approve r = g.clear r >>= fun c =>
      Act.orFail (sessionOf r) >>= fun session => pure (c, session) := by
  unfold approve clear
  simp only [bind_assoc]
  congr 1
  funext _
  congr 1
  funext raw
  congr 1
  funext ⟨claims, keyId, expiresAt⟩
  congr 1
  funext _
  split <;> simp only [bind_assoc, pure_bind]

theorem untouched_of_clear_fails (h : (g.clear r).Fails s f s') : Site.Untouched s s' := by
  rcases fails_bind.mp h with h | ⟨_, s₁, h₁, h⟩
  · exact (quiet_orFail _).of_fails h
  refine ((quiet_orFail _).of_gives h₁).trans ?_
  rcases fails_bind.mp h with h | ⟨raw, s₂, h₂, h⟩
  · exact (quiet_orFail _).of_fails h
  refine ((quiet_orFail _).of_gives h₂).trans ?_
  rcases fails_bind.mp h with h | ⟨⟨claims, keyId, expiresAt⟩, s₃, h₃, h⟩
  · exact (quiet_verifiedClaims g raw).of_fails h
  refine ((quiet_verifiedClaims g raw).of_gives h₃).trans ?_
  rcases fails_bind.mp h with h | ⟨_, s₄, h₄, h⟩
  · exact (quiet_authorize g r claims keyId).of_fails h
  refine ((quiet_authorize g r claims keyId).of_gives h₄).trans ?_
  split at h
  · rcases fails_bind.mp h with h | ⟨_, s₅, -, h⟩
    · exact SingleUse.untouched_of_mark_fails h
    · exact absurd h fails_pure
  · exact absurd h fails_pure

theorem of_clear_gives (hf : s.Faithful) (h : (g.clear r).Gives s c s') :
    r.claimed? = some c ∧ ∃ expiry,
      Claims.checkStateless g.settings c s.now = .ok expiry ∧
      (c.jwtId = [] ∧ Site.Untouched s s' ∨
        c.jwtId ≠ [] ∧ Site.MarkedBy c.jwtId expiry s s') := by
  obtain ⟨_, s₁, h₁, h⟩ := gives_bind.mp h
  obtain ⟨-, rfl⟩ := gives_orFail.mp h₁
  obtain ⟨raw, s₂, h₂, h⟩ := gives_bind.mp h
  obtain ⟨hraw, rfl⟩ := gives_orFail.mp h₂
  obtain ⟨⟨claims, keyId, expiry⟩, s₃, h₃, h⟩ := gives_bind.mp h
  obtain ⟨_, s₄, h₄, h⟩ := gives_bind.mp h
  have hq := ((quiet_verifiedClaims g raw).of_gives h₃).trans
    ((quiet_authorize g r claims keyId).of_gives h₄)
  obtain ⟨hc, hr⟩ := claimed_of_verifiedClaims h₃
  have hclaimed : r.claimed? = some claims := by
    unfold AccessRequest.claimed?
    rw [hraw]
    simp only [hc, Except.toOption]
  split at h
  · next hj =>
    obtain ⟨_, s₅, h₅, h⟩ := gives_bind.mp h
    obtain ⟨rfl, rfl⟩ := gives_pure.mp h
    refine ⟨hclaimed, expiry, hr, .inr ⟨?_, ?_⟩⟩
    · simpa using hj
    · exact hq.trans_markedBy (SingleUse.markedBy_of_mark_gives (hq.faithful hf) h₅)
  · next hj =>
    obtain ⟨rfl, rfl⟩ := gives_pure.mp h
    exact ⟨hclaimed, expiry, hr, .inl ⟨by simpa using hj, hq⟩⟩

theorem now_of_clear_gives (h : (g.clear r).Gives s c s') : s'.now = s.now := by
  obtain ⟨_, s₁, h₁, h⟩ := gives_bind.mp h
  obtain ⟨-, rfl⟩ := gives_orFail.mp h₁
  obtain ⟨raw, s₂, h₂, h⟩ := gives_bind.mp h
  obtain ⟨-, rfl⟩ := gives_orFail.mp h₂
  obtain ⟨⟨claims, keyId, expiry⟩, s₃, h₃, h⟩ := gives_bind.mp h
  obtain ⟨_, s₄, h₄, h⟩ := gives_bind.mp h
  have hq := ((quiet_verifiedClaims g raw).of_gives h₃).trans
    ((quiet_authorize g r claims keyId).of_gives h₄)
  split at h
  · obtain ⟨_, s₅, h₅, h⟩ := gives_bind.mp h
    obtain ⟨-, rfl⟩ := gives_pure.mp h
    by_cases hf : s₄.Faithful
    · exact (SingleUse.markedBy_of_mark_gives hf h₅).now.trans hq.now
    · exact (SingleUse.untouched_of_pretended hf h₅).now.trans hq.now
  · obtain ⟨-, rfl⟩ := gives_pure.mp h
    exact hq.now

def handled (g : Grant) (r : AccessRequest) (s : Site) : Handled × Site := (g.handle r).run s

theorem handled_eq_conclude (g : Grant) (r : AccessRequest) (s : Site) :
    g.handled r s =
      (g.conclude r ((g.approve r).outcome s).1).run ((g.approve r).outcome s).2 := rfl

theorem snd_handled (g : Grant) (r : AccessRequest) (s : Site) :
    ∃ log, (g.handled r s).2 = { ((g.clear r).outcome s).2 with log } := by
  have happrove : ((g.approve r).outcome s).2 = ((g.clear r).outcome s).2 := by
    rw [approve_eq, outcome_bind]
    rcases (g.clear r).outcome s with ⟨f | c, s'⟩
    · rfl
    · dsimp only
      rw [outcome_bind, outcome_orFail]
      cases sessionOf r <;> rfl
  rw [handled_eq_conclude, ← happrove]
  rcases (g.approve r).outcome s with ⟨f | ⟨c, session⟩, s'⟩
  · obtain ⟨log, e⟩ := conclude_error g r f s'
    exact ⟨log, congrArg Prod.snd e⟩
  · obtain ⟨log, e⟩ := conclude_ok g r c session s'
    exact ⟨log, congrArg Prod.snd e⟩

/-- A request ends before it is clear, and nothing has happened to the site; or it is clear and is
refused for its session; or it is clear and settled. -/
theorem handled_cases (g : Grant) (r : AccessRequest) (s : Site) :
    (∃ f s', (g.clear r).Fails s f s' ∧
      (g.handled r s).1 = ⟨r, .error f⟩ ∧ Site.Untouched s (g.handled r s).2) ∨
    ∃ c s' log, (g.clear r).Gives s c s' ∧ (g.handled r s).2 = { s' with log } ∧
      ((∃ f, sessionOf r = .error f ∧ (g.handled r s).1 = ⟨r, .error f⟩) ∨
        ∃ session, sessionOf r = .ok session ∧
          (g.handled r s).1 = g.settle r c session s'.now) := by
  rw [handled_eq_conclude, approve_eq, outcome_bind]
  rcases (g.clear r).gives_or_fails s with ⟨c, s', h⟩ | ⟨f, s', h⟩
  · right
    rw [h]
    dsimp only
    rw [outcome_bind, outcome_orFail]
    cases hs : sessionOf r with
    | error f =>
      obtain ⟨log, e⟩ := conclude_error g r f s'
      dsimp only
      rw [e]
      exact ⟨c, s', log, h, rfl, .inl ⟨f, rfl, rfl⟩⟩
    | ok session =>
      obtain ⟨log, e⟩ := conclude_ok g r c session s'
      dsimp only
      rw [outcome_pure, e]
      exact ⟨c, s', log, h, rfl, .inr ⟨session, rfl, rfl⟩⟩
  · left
    obtain ⟨log, e⟩ := conclude_error g r f s'
    have hu := untouched_of_clear_fails h
    rw [h]
    dsimp only
    rw [e]
    exact ⟨f, s', h, rfl, hu.trans (.of_eq rfl rfl rfl rfl)⟩

theorem handled_of_clear_fails (h : (g.clear r).Fails s f s') :
    (g.handled r s).1 = ⟨r, .error f⟩ := by
  rcases handled_cases g r s with ⟨f', s₁, h', e, -⟩ | ⟨c, s₁, log, h', -⟩
  · obtain ⟨hf, -⟩ := Prod.mk.inj (h'.symm.trans h)
    rw [e, Except.error.inj hf]
  · exact absurd h h'.not_fails

end Grant
end AssertionGrant

/-! A request that is accepted: its assertion expires at 5 seconds, bears an identifier and is
signed with a short key. -/

namespace AssertionGrant.Specimen

/-- A machine as it may run the program. -/
scoped instance : Json.Nesting := ⟨100, by decide⟩

def key : Jwk where
  fields := [("kty", .str "RSA"), ("kid", .str "k"), ("e", .str "Aw"), ("n", .str
    ("tAsDaQrfPqfan8esUfzY_r-mZV60I4SHqQf1LBh5N1kDad8-UVt_Zp9p1LYzESmcEySHFK3f6hUxyDdElMAv8Q"))]
  material := .rsaPublic
    ⟨0xb40b03690adf3ea7da9fc7ac51fcd8febfa6655eb4238487a907f52c18793759 * 2 ^ 256 +
      0x0369df3e515b7f669f69d4b63311299c13248714addfea1531c8374494c02ff1, 3⟩

def raw : String :=
  "eyJhbGciOiJSUzI1NiJ9.eyJpc3MiOiJpIiwic3ViIjoicyIsImF1ZCI6ImFzIiwiZXhwIjo1LCJqdGkiOiJqIn0." ++
    "HUbhZeM5eT5URRvSsa2kSPopky9bYnqdHu-bMlw58aab9qj_h4L-SFD1qCUhAGhPlsHXsFz_tPXgA-Q517bvWQ"

def grant : Grant where
  settings := { tokenUrl := "as", skipClientAuth := true, issuedAtOptional := true }
  issuer := ⟨"as", .absent, none, "RS256"⟩

def site : Site := { now := ⟨0⟩, keys := .memory [⟨.str "i", .str "s", .str "k", key, []⟩] }

def request : AccessRequest where
  grantTypes := [grantType]
  form := [("assertion", raw)]
  session := some (.bearer "" [])

def sessionless : AccessRequest := { request with session := none }

theorem request_accepted : (grant.handled request site).1.result = .ok () := by decide +kernel

end AssertionGrant.Specimen
