import AssertionGrant.Proofs.Lookups

/-! The policy of the grant. At a calm site whose keys are on a roll a request is accepted exactly
when an entry of the roll answers for its assertion, the claims keep the rules, and nothing is
requested that the entry and the claims do not allow. -/

namespace AssertionGrant

section Texts

variable {fields : Fields} {issuer subject : Text} {c : Claims}

theorem Grant.requiredText_eq_ok {name : String} {described text : Text} :
    requiredText fields name described = .ok text ↔
      fields.get? name = some (.str text) ∧ text ≠ [] := by
  unfold requiredText
  split
  · next h => simp [h]
  · next h =>
    rw [h]
    simp only [reduceCtorEq, Option.some.injEq, Json.str.injEq, false_iff, not_and, not_not]
    exact Eq.symm
  · next s hne h =>
    rw [h]
    simp only [Except.ok.injEq, Option.some.injEq, Json.str.injEq]
    constructor
    · rintro rfl
      exact ⟨rfl, hne⟩
    · exact And.left
  · next v hne h =>
    simp only [reduceCtorEq, false_iff, not_and]
    intro htext
    rw [h] at htext
    exact absurd (Option.some.inj htext) (hne text)

theorem Grant.assertionOf_eq_ok {r : AccessRequest} {raw : String} :
    assertionOf r = .ok raw ↔ r.parameter? "assertion" = some raw ∧ raw ≠ "" := by
  unfold assertionOf
  split
  · next h => simp [h]
  · next h =>
    rw [h]
    simp only [reduceCtorEq, Option.some.injEq, false_iff, not_and, not_not]
    exact Eq.symm
  · next raw' hne h =>
    rw [h]
    simp only [Except.ok.injEq, Option.some.injEq]
    constructor
    · rintro rfl
      exact ⟨rfl, hne⟩
    · exact And.left

theorem Grant.screen_eq_ok {g : Grant} {r : AccessRequest} {u : Unit} :
    g.screen r = .ok u ↔ r.grantTypes = [grantType] ∧ (g.settings.skipClientAuth = true ∨
      ∃ client, r.client = some client ∧ grantType ∈ client.grantTypes) := by
  unfold screen owns AccessRequest.hasExactly
  by_cases hexact : r.grantTypes = [grantType]
  · have howns : (r.grantTypes == [grantType]) = true := by simpa using hexact
    rw [howns]
    simp only [hexact, true_and, Bool.not_true, Bool.false_eq_true, if_false]
    unfold mayUse
    cases hskip : g.settings.skipClientAuth <;> cases hclient : r.client <;> simp
  · have howns : (r.grantTypes == [grantType]) = false := by simpa using hexact
    rw [howns]
    simp [hexact]

theorem Claims.textOf_eq_ok_of_str {name : String} {text : Text}
    (h : fields.get? name = some (.str text)) : textOf fields name = .ok text := by
  unfold textOf
  rw [h]

theorem Claims.issuer_subject_of_ofFields (h : ofFields fields = .ok c)
    (hissuer : fields.get? "iss" = some (.str issuer))
    (hsubject : fields.get? "sub" = some (.str subject)) :
    c.issuer = issuer ∧ c.subject = subject := by
  unfold ofFields at h
  obtain ⟨issuer', hi, h⟩ := bind_eq_ok.mp h
  obtain ⟨subject', hs, h⟩ := bind_eq_ok.mp h
  rw [textOf_eq_ok_of_str hissuer] at hi
  rw [textOf_eq_ok_of_str hsubject] at hs
  obtain rfl := Except.ok.inj hi
  obtain rfl := Except.ok.inj hs
  obtain ⟨_, -, h⟩ := bind_eq_ok.mp h
  obtain ⟨_, -, h⟩ := bind_eq_ok.mp h
  obtain ⟨_, -, h⟩ := bind_eq_ok.mp h
  obtain ⟨_, -, h⟩ := bind_eq_ok.mp h
  obtain ⟨_, -, h⟩ := bind_eq_ok.mp h
  obtain rfl := Except.ok.inj h
  exact ⟨rfl, rfl⟩

end Texts

theorem PublicKey.id_or_empty (key : PublicKey) :
    (if key.jwk.id.isTruthy then key.jwk.id else .str "") = .str key.keyId := by
  rw [key.named]
  split
  · rfl
  · next h =>
    have hempty : key.keyId = [] := by simpa [Json.isTruthy] using h
    rw [hempty]
    rfl

namespace Grant
open Act

structure Fits (session : Session) : Prop where
  holds : session.holdsGrant = true
  settable : session.failure? = none

theorem Fits.result_settle {g : Grant} {r : AccessRequest} {session : Session} {c : Claims}
    {now : Instant} (h : Fits session)     (hcalendar : (g.expiryAt r now).isSome = true) :
    (g.settle r c session now).result = .ok () := by
  cases hresult : (g.settle r c session now).result with
  | ok _ => rfl
  | error f =>
    rcases settle_eq_error.mp hresult with ⟨hbeyond, -⟩ | ⟨-, hfails⟩
    · rw [hbeyond] at hcalendar
      cases hcalendar
    · rw [h.settable] at hfails
      cases hfails

variable [Json.Nesting]

/-- An entry of the roll answers for an assertion at a site: the store finds it for the issuer and
the subject of the assertion, its key signed it, and the claims keep the rules and were not used
before. -/
structure Vouched (g : Grant) (s : Site) (roll : Roll) (raw : String) (e : Entry) (c : Claims)
    (expiry : Instant) : Prop where
  signed : ∃ t fields, Compact.parse raw = .ok t ∧ t.unverifiedClaims = .ok fields ∧
    fields.get? "iss" = some (.str c.issuer) ∧ fields.get? "sub" = some (.str c.subject) ∧
    roll.Signer s.keys.isShared t g.settings.algorithms c.issuer c.subject e ∧
    Claims.ofFields fields = .ok c
  issuer : c.issuer ≠ []
  subject : c.subject ≠ []
  rules : c.Keep g.settings s.now expiry
  fresh : c.jwtId ≠ [] → ¬ s.records.Holds s.now c.jwtId

/-- What the policy asks of a request: it is for this grant, and its client may use it; an entry of
the roll answers for its assertion; and the requested scopes are covered by those of the entry, and
the requested audience, where the settings ask for it, by that of the claims. -/
structure Permitted (g : Grant) (s : Site) (roll : Roll) (r : AccessRequest) (e : Entry)
    (c : Claims) (expiry : Instant) : Prop where
  exactly : r.grantTypes = [grantType]
  client : g.settings.skipClientAuth = true ∨
    ∃ client, r.client = some client ∧ grantType ∈ client.grantTypes
  assertion : ∃ raw, r.parameter? "assertion" = some raw ∧ raw ≠ "" ∧
    g.Vouched s roll raw e c expiry
  scopes : ∀ scope ∈ r.scopes, g.scopes (.arr e.scopesJson) scope = .ok true
  audience : g.settings.matchRequestedAudience = true → g.audience c.audience r.audience = .ok ()

variable {g : Grant} {r : AccessRequest} {s₀ s s' : Site} {roll : Roll}

theorem Vouched.mem {raw : String} {e : Entry} {c : Claims} {expiry : Instant}
    (h : g.Vouched s roll raw e c expiry) :
    e ∈ roll ∧ e.isFor s.keys.isShared c.issuer c.subject = true := by
  obtain ⟨t, fields, -, -, -, -, he, -⟩ := h.signed
  exact he.mem

theorem issuerAndSubject_eq_ok {t : Compact} {issuer subject : Text} :
    issuerAndSubject t = .ok (issuer, subject) ↔ ∃ fields, t.unverifiedClaims = .ok fields ∧
      (fields.get? "iss" = some (.str issuer) ∧ issuer ≠ []) ∧
      (fields.get? "sub" = some (.str subject) ∧ subject ≠ []) := by
  constructor
  · intro h
    obtain ⟨fields, hread, h⟩ := bind_eq_ok.mp h
    obtain ⟨issuer', hissuer, h⟩ := bind_eq_ok.mp h
    obtain ⟨subject', hsubject, h⟩ := bind_eq_ok.mp h
    obtain ⟨rfl, rfl⟩ := Prod.mk.inj (Except.ok.inj h)
    exact ⟨fields, mapError_eq_ok.mp hread, requiredText_eq_ok.mp hissuer,
      requiredText_eq_ok.mp hsubject⟩
  · rintro ⟨fields, hread, hissuer, hsubject⟩
    refine bind_eq_ok.mpr ⟨fields, mapError_eq_ok.mpr hread, ?_⟩
    refine bind_eq_ok.mpr ⟨issuer, requiredText_eq_ok.mpr hissuer, ?_⟩
    exact bind_eq_ok.mpr ⟨subject, requiredText_eq_ok.mpr hsubject, rfl⟩

theorem decides_checked (hs : s₀.Stocked roll) (g : Grant) {t : Compact} {fields : Fields}
    (hclaims : t.unverifiedClaims = .ok fields) (issuer subject : Text) :
    (Signer.find t g.settings.algorithms issuer subject >>= fun found =>
      refusing (Assertion.claimsOf found.2) >>= fun c => get >>= fun s =>
        Claims.validate g.settings c s.now >>= fun expiry =>
          pure (c, if found.1.id.isTruthy then found.1.id else .str "", expiry)).Decides s₀
      fun checked => ∃ e, roll.Signer s₀.keys.isShared t g.settings.algorithms issuer subject e ∧
        Claims.ofFields fields = .ok checked.1 ∧
        (checked.1.Keep g.settings s₀.now checked.2.2 ∧
          (checked.1.jwtId ≠ [] → ¬ s₀.records.Holds s₀.now checked.1.jwtId)) ∧
        .str e.key.keyId = checked.2.1 := by
  have hconverted (payload : Fields) : (refusing (Assertion.claimsOf payload)).Decides s₀
      fun c => Claims.ofFields payload = .ok c :=
    (decides_refusing _).congr fun c => mapError_eq_ok
  have hvalidated (c : Claims) (keyId : Json) : (get >>= fun s : Site =>
      Claims.validate g.settings c s.now >>= fun expiry => pure (c, keyId, expiry)).Decides s₀
        fun checked => ∃ expiry, (c.Keep g.settings s₀.now expiry ∧
          (c.jwtId ≠ [] → ¬ s₀.records.Holds s₀.now c.jwtId)) ∧ (c, keyId, expiry) = checked := by
    refine Decides.now fun s hsteady => ?_
    rw [hsteady.now]
    exact (Claims.decides_validate hs.toCalm g.settings c).bind fun expiry _ =>
      decides_pure (c, keyId, expiry)
  refine ((Signer.decides_find hs hclaims).bind fun found _ => (hconverted found.2).bind
    fun c _ => hvalidated c _).congr fun checked => ?_
  constructor
  · rintro ⟨_, ⟨e, he, rfl⟩, c, hc, expiry, hvalid, rfl⟩
    exact ⟨e, he, hc, hvalid, e.key.id_or_empty.symm⟩
  · rintro ⟨e, he, hc, hvalid, hid⟩
    refine ⟨_, ⟨e, he, rfl⟩, checked.1, hc, checked.2.2, hvalid, ?_⟩
    rw [e.key.id_or_empty, hid]

theorem decides_verifiedClaims (hs : s₀.Stocked roll) (g : Grant) (raw : String) :
    (g.verifiedClaims raw).Decides s₀ fun found =>
      ∃ e, g.Vouched s₀ roll raw e found.1 found.2.2 ∧ .str e.key.keyId = found.2.1 := by
  have hparse : (refusing (Assertion.parse raw)).Decides s₀ fun t => Compact.parse raw = .ok t :=
    (decides_refusing _).congr fun t => mapError_eq_ok
  refine (hparse.bind fun t _ => (decides_refusing (issuerAndSubject t)).bind
    (Q := fun read found => ∃ fields e, t.unverifiedClaims = .ok fields ∧
      roll.Signer s₀.keys.isShared t g.settings.algorithms read.1 read.2 e ∧
      Claims.ofFields fields = .ok (found : Claims × Json × Instant).1 ∧
      (found.1.Keep g.settings s₀.now found.2.2 ∧
        (found.1.jwtId ≠ [] → ¬ s₀.records.Holds s₀.now found.1.jwtId)) ∧
      Json.str e.key.keyId = found.2.1) fun read hread => ?_).congr fun found => ?_
  · obtain ⟨issuer, subject⟩ := read
    obtain ⟨fields, hclaims, -, -⟩ := issuerAndSubject_eq_ok.mp hread
    refine (decides_checked hs g hclaims issuer subject).congr fun found => ?_
    simp only [hclaims, Except.ok.injEq, exists_and_left, exists_eq_left']
  · constructor
    · rintro ⟨t, ht, ⟨issuer, subject⟩, hread, fields, e, hclaims, he, hc, ⟨hrules, hfresh⟩, hid⟩
      obtain ⟨fields', hclaims', hissuer, hsubject⟩ := issuerAndSubject_eq_ok.mp hread
      obtain rfl : fields' = fields := Except.ok.inj (hclaims'.symm.trans hclaims)
      -- The key was looked up for the unverified pair, which is the verified one.
      obtain ⟨rfl, rfl⟩ := Claims.issuer_subject_of_ofFields hc hissuer.1 hsubject.1
      exact ⟨e, ⟨⟨t, fields', ht, hclaims, hissuer.1, hsubject.1, he, hc⟩, hissuer.2, hsubject.2,
        hrules, hfresh⟩, hid⟩
    · rintro ⟨e, ⟨⟨t, fields, ht, hclaims, hissuer, hsubject, he, hc⟩, hi, hs, hrules, hfresh⟩, hid⟩
      refine ⟨t, ht, (found.1.issuer, found.1.subject), ?_, fields, e, hclaims, he, hc,
        ⟨hrules, hfresh⟩, hid⟩
      exact issuerAndSubject_eq_ok.mpr ⟨fields, hclaims, ⟨hissuer, hi⟩, hsubject, hs⟩

theorem decides_authorize (hs : s₀.Stocked roll) {e : Entry} (he : e ∈ roll) {c : Claims}
    (hfor : e.isFor s₀.keys.isShared c.issuer c.subject = true) :
    (g.authorize r c (.str e.key.keyId)).Decides s₀ fun _ =>
      (∀ scope ∈ r.scopes, g.scopes (.arr e.scopesJson) scope = .ok true) ∧
        (g.settings.matchRequestedAudience = true → g.audience c.audience r.audience = .ok ()) := by
  have hfind := hs.filled.distinct.find?_of_mem he hfor
  have hscopes : (scopesOf c (.str e.key.keyId)).Decides s₀
      fun scopes => .arr e.scopesJson = scopes := by
    unfold scopesOf
    refine ((decides_checkContext hs.toCalm).seq fun _ =>
      (decides_publicKeyScopes hs c.issuer c.subject e.key.keyId).tryCatch fun f s a s' => ?_).congr
        fun scopes => ?_
    · split <;> exact gives_throw
    · rw [hfind]
      simp only [true_and, Option.some.injEq, exists_eq_left']
  have haudience : (if g.settings.matchRequestedAudience then
      orFail (g.audience c.audience r.audience) else pure ()).Decides s₀ fun _ =>
        g.settings.matchRequestedAudience = true → g.audience c.audience r.audience = .ok () := by
    cases g.settings.matchRequestedAudience
    · exact (decides_pure ()).congr fun _ => by simp
    · exact (decides_orFail _).congr fun _ => by simp
  have hcovered (scopes : Json) : (orFail (Scope.authorize g.scopes scopes r.scopes c.issuer
      c.subject)).Decides s₀ fun _ => ∀ scope ∈ r.scopes, g.scopes scopes scope = .ok true :=
    (decides_orFail _).congr fun _ => Scope.authorize_eq_ok
  refine (hscopes.bind fun scopes _ => (hcovered scopes).seq fun _ => haudience).congr fun _ => ?_
  simp only [exists_eq_left']

def examine (g : Grant) (r : AccessRequest) : Act (Claims × Instant) := do
  orFail (g.screen r)
  let raw ← orFail (assertionOf r)
  let (claims, keyId, expiresAt) ← g.verifiedClaims raw
  g.authorize r claims keyId
  pure (claims, expiresAt)

theorem clear_eq (g : Grant) (r : AccessRequest) :
    g.clear r = g.examine r >>= fun found =>
      (if !found.1.jwtId.isEmpty then SingleUse.mark found.1.jwtId found.2 else pure ()) >>=
        fun _ => pure found.1 := by
  unfold clear examine
  simp only [bind_assoc, pure_bind]
  congr 1
  funext _
  congr 1
  funext raw
  congr 1
  funext ⟨claims, keyId, expiresAt⟩
  congr 1
  funext _
  split <;> simp only [pure_bind]

theorem quiet_examine (g : Grant) (r : AccessRequest) : (g.examine r).Quiet := by
  refine (quiet_orFail _).bind fun _ => (quiet_orFail _).bind fun raw => ?_
  refine (quiet_verifiedClaims g raw).bind fun found => ?_
  exact (quiet_authorize g r found.1 found.2.1).bind fun _ => quiet_pure _

/-- The gates before the mark let pass exactly what the policy permits. -/
theorem decides_examine (hs : s₀.Stocked roll) (g : Grant) (r : AccessRequest) :
    (g.examine r).Decides s₀ fun found => ∃ e, g.Permitted s₀ roll r e found.1 found.2 := by
  have hscreen : (orFail (g.screen r)).Decides s₀ _ :=
    (decides_orFail _).congr fun _ => screen_eq_ok
  have hassertion : (orFail (assertionOf r)).Decides s₀ _ :=
    (decides_orFail _).congr fun _ => assertionOf_eq_ok
  have hallowed (raw : String) : (g.verifiedClaims raw >>= fun verified =>
      g.authorize r verified.1 verified.2.1 >>= fun _ => pure (verified.1, verified.2.2)).Decides s₀
        fun found => ∃ e, g.Vouched s₀ roll raw e found.1 found.2 ∧
          (∀ scope ∈ r.scopes, g.scopes (.arr e.scopesJson) scope = .ok true) ∧
            (g.settings.matchRequestedAudience = true →
              g.audience found.1.audience r.audience = .ok ()) := by
    refine ((decides_verifiedClaims hs g raw).bind_exists (Q := fun e verified found =>
      ((∀ scope ∈ r.scopes, g.scopes (.arr e.scopesJson) scope = .ok true) ∧
        (g.settings.matchRequestedAudience = true →
          g.audience verified.1.audience r.audience = .ok ())) ∧
      (verified.1, verified.2.2) = found) fun e verified he => ?_).congr fun found => ?_
    · rw [← he.2]
      obtain ⟨hmem, hfor⟩ := he.1.mem
      exact (decides_authorize hs hmem hfor).seq fun _ => decides_pure _
    · constructor
      · rintro ⟨e, verified, ⟨he, -⟩, hcovered, rfl⟩
        exact ⟨e, he, hcovered⟩
      · rintro ⟨e, he, hcovered⟩
        exact ⟨e, (found.1, .str e.key.keyId, found.2), ⟨he, rfl⟩, hcovered, rfl⟩
  refine (hscreen.seq fun _ => hassertion.bind fun raw _ => hallowed raw).congr fun found => ?_
  constructor
  · rintro ⟨⟨hexactly, hclient⟩, raw, ⟨hraw, hne⟩, e, he, hscopes, haudience⟩
    exact ⟨e, hexactly, hclient, ⟨raw, hraw, hne, he⟩, hscopes, haudience⟩
  · rintro ⟨e, hexactly, hclient, ⟨raw, hraw, hne, he⟩, hscopes, haudience⟩
    exact ⟨⟨hexactly, hclient⟩, raw, ⟨hraw, hne⟩, e, he, hscopes, haudience⟩

theorem Permitted.claimed {e : Entry} {c : Claims} {expiry : Instant}
    (h : g.Permitted s roll r e c expiry) : r.claimed? = some c := by
  obtain ⟨raw, hraw, hne, he⟩ := h.assertion
  obtain ⟨t, fields, ht, hfields, -, -, -, hc⟩ := he.signed
  have hclaimed : Assertion.claimed raw = .ok c := by
    refine bind_eq_ok.mpr ⟨t, mapError_eq_ok.mpr ht, ?_⟩
    exact bind_eq_ok.mpr ⟨fields, mapError_eq_ok.mpr hfields, mapError_eq_ok.mpr hc⟩
  unfold AccessRequest.claimed?
  rw [assertionOf_eq_ok.mpr ⟨hraw, hne⟩]
  dsimp only
  rw [hclaimed]
  rfl

theorem clear_gives_iff (hs : s.Stocked roll) {c : Claims} :
    (∃ s', (g.clear r).Gives s c s') ↔ ∃ e expiry, g.Permitted s roll r e c expiry := by
  have hexamine := decides_examine hs g r
  rw [clear_eq]
  simp only [gives_bind, gives_pure]
  constructor
  · rintro ⟨s', ⟨c', expiry⟩, s₁, h₁, _, s₂, -, rfl, rfl⟩
    obtain ⟨e, he⟩ := (hexamine.gives s _ (.refl s)).mp ⟨s₁, h₁⟩
    exact ⟨e, expiry, he⟩
  · rintro ⟨e, expiry, he⟩
    obtain ⟨s₁, h₁⟩ := (hexamine.gives s (c, expiry) (.refl s)).mpr ⟨e, he⟩
    have hsteady := hexamine.steady s _ s₁ (.refl s) h₁
    obtain ⟨_, -, -, hvouched⟩ := he.assertion
    -- The gates have found no live record and have left none, so the mark cannot be refused.
    suffices hmark : ∃ s', (if !c.jwtId.isEmpty then SingleUse.mark c.jwtId expiry
        else pure ()).Gives s₁ () s' by
      obtain ⟨s', h⟩ := hmark
      exact ⟨s', (c, expiry), s₁, h₁, (), s', h, rfl, rfl⟩
    by_cases hid : c.jwtId = []
    · rw [hid]
      exact ⟨s₁, gives_pure.mpr ⟨rfl, rfl⟩⟩
    · have hne : c.jwtId.isEmpty = false := by simpa using hid
      have hfree : ¬ s₁.records.Holds s₁.now c.jwtId := by
        rw [hsteady.holds_now hs.distinct]
        exact hvouched.fresh hid
      rw [hne]
      exact (SingleUse.mark_calm (hsteady.calm hs.toCalm) c.jwtId expiry).elim
        (fun h => absurd h.1 hfree) And.right

/-- A request is accepted exactly when the policy permits it, provided its session fits and the
token expires within the calendar. -/
theorem accepted_iff_permitted (g : Grant) (r : AccessRequest) {session : Session}
    (hs : s.Stocked roll) (hsession : r.session = some session) (hfits : Fits session)
    (hcalendar : (g.expiryAt r s.now).isSome = true) :
    (g.handled r s).1.result = .ok () ↔ ∃ e c expiry, g.Permitted s roll r e c expiry := by
  have hfit : sessionOf r = .ok session := by
    unfold sessionOf
    rw [hsession]
    exact if_pos hfits.holds
  rcases handled_cases g r s with ⟨f, s', hf, e, -⟩ | ⟨c, s', log, hg, -, hcase⟩
  · rw [e]
    simp only [reduceCtorEq, false_iff]
    rintro ⟨e, c, expiry, h⟩
    obtain ⟨s₁, h₁⟩ := (clear_gives_iff hs).mpr ⟨e, expiry, h⟩
    exact h₁.not_fails hf
  · have hnow := now_of_clear_gives hg
    obtain ⟨e, expiry, h⟩ := (clear_gives_iff hs).mp ⟨s', hg⟩
    rcases hcase with ⟨f, hf, -⟩ | ⟨session', hsession', e'⟩
    · rw [hfit] at hf
      cases hf
    · obtain rfl := Except.ok.inj (hfit.symm.trans hsession')
      rw [e', hnow]
      exact iff_of_true (hfits.result_settle hcalendar) ⟨e, c, expiry, h⟩

end Grant

/-! The request that is accepted, at a site whose only key was registered by a call. -/

namespace Specimen

theorem spelled_key : Jwk.ofJson (.obj key.fields) = .ok key :=
  Jwk.ofJson_of_material (by decide +kernel)

def entry : Entry where
  issuer := "i"
  subject := "s"
  key := {
    jwk := key
    keyId := "k"
    isPublic := trivial
    named := rfl
    spelled := spelled_key
    proper := ⟨by decide, trivial, trivial, trivial, trivial, trivial⟩ }
  scopes := []

theorem stocked_site : site.Stocked [entry] where
  undisturbed := rfl
  live := nofun
  distinct := List.nodup_nil
  up := rfl
  filled := .added entry (.inMemory {}) rfl

theorem request_permitted :
    (∃ session, request.session = some session ∧ Grant.Fits session) ∧
      (grant.expiryAt request site.now).isSome = true ∧
      ∃ e c expiry, grant.Permitted site [entry] request e c expiry := by
  have hfits : Grant.Fits (.bearer "" []) := ⟨rfl, rfl⟩
  refine ⟨⟨_, rfl, hfits⟩, rfl, ?_⟩
  exact (Grant.accepted_iff_permitted grant request stocked_site rfl hfits rfl).mp request_accepted

end Specimen
end AssertionGrant
