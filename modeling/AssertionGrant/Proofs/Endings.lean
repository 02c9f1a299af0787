import AssertionGrant.Proofs.Deadlines
import AssertionGrant.Proofs.Filling
import AssertionGrant.Proofs.Seconds

/-! When a token ends. The first phase keeps the end of the lifespan in the session, to the nearest
second; the token names that second, and the response counts the whole seconds until then. So the
response never promises a longer life than the token has. -/

namespace AssertionGrant

theorem Expiries.find?_put (expiries : Expiries) (tokenType : Text) (expiry : Instant) :
    (expiries.put tokenType expiry).find? tokenType = some expiry := by
  induction expiries with
  | nil => simp [put, find?]
  | cons e rest ih =>
    unfold put
    by_cases h : e.1 = tokenType
    · simp [h, find?]
    · rw [if_neg h]
      unfold find? at ih ⊢
      rw [List.find?_cons_of_neg (by simpa using h), ih]

theorem Issuer.dates_of_payload [Json.Nesting] {i : Issuer} {r : AccessRequest}
    {now expiresAt : Instant} {jti : String} {payload : Fields}
    (h : i.payload r now expiresAt jti = .obj payload) :
    Fields.get? (Json.mergedFields [] payload) "iat" = some (.int now.wholeSeconds) ∧
      Fields.get? (Json.mergedFields [] payload) "exp" = some (.int expiresAt.wholeSeconds) := by
  obtain ⟨payload', hpayload, -, ⟨hapart, -⟩, -⟩ := i.exists_payload r now expiresAt jti
  obtain rfl := Json.obj.inj (hpayload.symm.trans h)
  rw [Jwk.Follows.get?_merged hapart "iat" (by decide),
    Jwk.Follows.get?_merged hapart "exp" (by decide)]
  obtain rfl := Json.obj.inj h
  exact ⟨rfl, rfl⟩

namespace Grant
open Act

variable {g : Grant} {r : AccessRequest} {c : Claims}

theorem holdsGrant_of_sessionOf {session : Session} (h : sessionOf r = .ok session) :
    session.holdsGrant = true := by
  unfold sessionOf at h
  split at h
  · split at h
    · next hholds => rwa [← Except.ok.inj h]
    · cases h
  · cases h

theorem expiry_of_settle {session : Session} {now : Instant} (hholds : session.holdsGrant = true)
    (hok : (g.settle r c session now).result = .ok ()) :
    ∃ expiry, g.expiryAt r now = some expiry ∧
      (g.settle r c session now).request.session.bind (·.expiry? accessToken) = some expiry := by
  obtain ⟨expiry, hexpiry, hrequest⟩ := of_settle_ok hok
  have hkeeps : session.expiries.isSome = true := (Bool.and_eq_true_iff.mp hholds).1
  obtain ⟨expiries, he⟩ := Option.isSome_iff_exists.mp hkeeps
  refine ⟨expiry, hexpiry, ?_⟩
  rw [hrequest, he]
  exact expiries.find?_put accessToken expiry

theorem near_of_expiryAt {now expiry : Instant} (h : g.expiryAt r now = some expiry) :
    expiry.micros % 1000000 = 0 ∧
      2 * (now.micros + (g.lifespanFor r).micros - expiry.micros) < 1000000 ∧
      2 * (expiry.micros - (now.micros + (g.lifespanFor r).micros)) ≤ 1000000 := by
  obtain ⟨exact, hadd, hround⟩ := Option.bind_eq_some_iff.mp h
  unfold Instant.add? at hadd
  split at hadd
  · obtain rfl := Option.some.inj hadd
    exact Instant.of_roundToSecond hround
  · cases hadd

variable [Json.Nesting] {s s₁ s₂ : Site}

theorem expiry_of_accepted (hok : (g.handled r s).1.result = .ok ()) :
    ∃ expiry, g.expiryAt r s.now = some expiry ∧
      (g.handled r s).1.request.session.bind (·.expiry? accessToken) = some expiry := by
  rcases handled_cases g r s with
    ⟨f, s', -, e, -⟩ | ⟨c, s', log, hc, -, ⟨f, -, e⟩ | ⟨session, hsession, e⟩⟩
  · rw [e] at hok
    cases hok
  · rw [e] at hok
    cases hok
  · rw [e] at hok ⊢
    rw [← now_of_clear_gives hc]
    exact expiry_of_settle (holdsGrant_of_sessionOf hsession) hok

theorem respond_gives (hok : (g.handled r s).1.result = .ok ()) (hlive : s₁.Live)
    (hsign : ∀ payload t, ∃ token, (g.issuer.sign payload).Gives t token t) :
    ∃ response s₂, (g.respond (g.handled r s).1.request).Gives s₁ response s₂ := by
  obtain ⟨expiry, -, hsession⟩ := expiry_of_accepted hok
  have hexpiry (lifespan : Span) :
      Issuer.expiryFor (g.handled r s).1.request s₁.now lifespan = .ok expiry := by
    unfold Issuer.expiryFor
    rw [hsession]
  have hscreen : (orFail (g.screen (g.handled r s).1.request)).Gives s₁ () s₁ :=
    gives_orFail.mpr ⟨screen_of_accepted hok, rfl⟩
  rcases Issuer.outcome_issue (i := g.issuer) (hexpiry _) with ⟨hdone, -⟩ | ⟨-, payload, s₂, hissue⟩
  · exact absurd hlive hdone
  · obtain ⟨token, htoken⟩ := hsign payload s₂
    rw [htoken] at hissue
    exact ⟨_, s₂, gives_bind.mpr ⟨(), s₁, hscreen, hissue⟩⟩

/-- What a session, a token and a response tell of the end of a token that is issued now. -/
structure Dated (now : Instant) (lifespan : Span) (session : Option Session) (payload : Fields)
    (response : TokenResponse) (expiry : Instant) (seconds : Int) : Prop where
  session : session.bind (·.expiry? accessToken) = some expiry
  whole : expiry.micros % 1000000 = 0
  early : 2 * (now.micros + lifespan.micros - expiry.micros) < 1000000
  late : 2 * (expiry.micros - (now.micros + lifespan.micros)) ≤ 1000000
  expiresAt : payload.get? "exp" = some (.int (expiry.micros / 1000000))
  issuedAt : payload.get? "iat" = some (.int (now.micros / 1000000))
  expiresIn : response.expiresIn = some (.int seconds)
  seconds : seconds = max 0 ((expiry.micros - now.micros) / 1000000)

/-- As long as a double counts microseconds exactly, session, token and response agree on the end of
the token: the nearest second to the end of the lifespan. A token with a lifespan of half a second
or more is still good when it is issued, and it ends in the second that the response counts to. -/
theorem dates_agree {response : TokenResponse} (hnow : 0 ≤ s.now.micros)
    (hnow' : s.now.micros ≤ 2 ^ 33 * 1000000) (hlifespan : 0 < (g.lifespanFor r).micros)
    (hlifespan' : (g.lifespanFor r).micros < 2 ^ 33 * 1000000)
    (hok : (g.handled r s).1.result = .ok ()) (hclock : s₁.now = s.now)
    (h : (g.respond (g.handled r s).1.request).Gives s₁ response s₂) :
    ∃ t payload expiry seconds, Compact.parse response.accessToken = .ok t ∧
      t.unverifiedClaims = .ok payload ∧
      Dated s.now (g.lifespanFor r) (g.handled r s).1.request.session payload response expiry
        seconds ∧
      (500000 ≤ (g.lifespanFor r).micros → s.now.micros < expiry.micros ∧
        s.now.micros + seconds * 1000000 ≤ expiry.micros ∧
        expiry.micros < s.now.micros + seconds * 1000000 + 1000000) := by
  obtain ⟨expiry, hexpiry, hsession⟩ := expiry_of_accepted hok
  obtain ⟨hwhole, hearly, hlate⟩ := near_of_expiryAt hexpiry
  obtain ⟨_, _, hscreen, hissue⟩ := gives_bind.mp h
  obtain ⟨-, rfl⟩ := gives_orFail.mp hscreen
  obtain ⟨-, -, expiresAt, jti, t, payload, hfor, hexpiresIn, hparse, hclaims, hpayload⟩ :=
    Issuer.exists_issued hissue
  unfold Issuer.expiryFor at hfor
  rw [hsession] at hfor
  obtain rfl := Except.ok.inj hfor
  rw [hclock] at hexpiresIn hpayload
  obtain ⟨hiat, hexp⟩ := Issuer.dates_of_payload hpayload
  rw [Instant.wholeSeconds_eq hnow (by omega)] at hiat
  rw [Instant.wholeSeconds_eq (by omega) (by omega)] at hexp
  rw [Issuer.secondsLeft_eq (by omega)] at hexpiresIn
  exact ⟨t, _, expiry, _, hparse, hclaims,
    ⟨hsession, hwhole, hearly, hlate, hexp, hiat, hexpiresIn, rfl⟩, by omega⟩

end Grant

namespace Specimen

def signing : Grant where
  settings := { grant.settings with lifespan := ⟨3600200000⟩ }
  issuer := ⟨"as", .secret (List.replicate 32 1), none, "HS256"⟩

def lateSite : Site := { site with now := ⟨400000⟩ }

theorem signing_dated :
    0 ≤ lateSite.now.micros ∧ lateSite.now.micros ≤ 2 ^ 33 * 1000000 ∧
      0 < (signing.lifespanFor request).micros ∧
      (signing.lifespanFor request).micros < 2 ^ 33 * 1000000 ∧
      (signing.handled request lateSite).1.result = .ok () ∧
      ∃ response s₂ t payload,
        (signing.respond (signing.handled request lateSite).1.request).Gives lateSite response s₂ ∧
        Compact.parse response.accessToken = .ok t ∧ t.unverifiedClaims = .ok payload ∧
        payload.get? "exp" = some (.int 3601) ∧ payload.get? "iat" = some (.int 0) ∧
        response.expiresIn = some (.int 3600) := by
  have hnow : lateSite.now.micros = 400000 := rfl
  have hspan : (signing.lifespanFor request).micros = 3600200000 := by decide
  have hok : (signing.handled request lateSite).1.result = .ok () := by decide +kernel
  have hname : Algorithm.ofName? signing.issuer.algorithm = some (.hmac .sha256) := by decide
  have hfree : Secret.check (List.replicate 32 1) = .ok (List.replicate 32 1) := by decide +kernel
  have hsecret : Algorithm.secretOf signing.issuer.key = .ok (List.replicate 32 1) :=
    mapError_eq_ok.mpr hfree
  have hlive : lateSite.Live := nofun
  obtain ⟨response, s₂, h⟩ :=
    Grant.respond_gives hok hlive (Issuer.sign_gives_of_secret hname hsecret)
  have hnow₀ : 0 ≤ lateSite.now.micros := by decide
  have hnow₁ : lateSite.now.micros ≤ 2 ^ 33 * 1000000 := by decide
  have hspan₀ : 0 < (signing.lifespanFor request).micros := by omega
  have hspan₁ : (signing.lifespanFor request).micros < 2 ^ 33 * 1000000 := by omega
  obtain ⟨t, payload, expiry, seconds, hparse, hclaims, hdated, -⟩ :=
    Grant.dates_agree hnow₀ hnow₁ hspan₀ hspan₁ hok rfl h
  have hearly := hdated.early
  have hlate := hdated.late
  have hwhole := hdated.whole
  have hexpiry : expiry.micros = 3601000000 := by omega
  have hexp := hdated.expiresAt
  have hiat := hdated.issuedAt
  have hin := hdated.expiresIn
  rw [hdated.seconds, hnow] at hin
  rw [hnow] at hiat
  rw [hexpiry] at hexp hin
  exact ⟨hnow₀, hnow₁, hspan₀, hspan₁, hok, response, s₂, t, payload, h, hparse, hclaims, hexp,
    hiat, hin⟩

end Specimen
end AssertionGrant
