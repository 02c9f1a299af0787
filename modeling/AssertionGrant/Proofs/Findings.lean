import AssertionGrant.Proofs.Calls
import AssertionGrant.Proofs.Policy

/-! What the gates establish at a site whose storages speak for themselves: a storage call may be
delayed, cancelled or made to fail, but no answer is made up. There the key that is found is the one
that the store has for the assertion, whatever its keys are, and the identifier that passes the
look-up has no live record. -/

namespace AssertionGrant

/-- A disturbance does not answer in the storage's place. -/
def Disturbance.Honest {α : Type} (d : Option (Disturbance α)) : Prop :=
  ∀ a, d.bind (·.outcome) ≠ some (.ok a)

theorem Disturbance.honest_none {α : Type} : Honest (none : Option (Disturbance α)) := by
  intro a h
  cases h

theorem Act.gives_storage {α : Type} {s s' : Site} {call : StorageCall}
    {disturbance : Disturbances → Option (Disturbance α)} {answer : Act α} {a : α}
    (hd : Disturbance.Honest (disturbance s.disturbances))
    (h : (Act.storage call disturbance answer).Gives s a s') :
    answer.Gives (Act.called s call (disturbance s.disturbances)) a s' := by
  unfold Gives at h ⊢
  rw [Act.outcome_storage] at h
  split at h
  · exact h
  · next r hr =>
    obtain ⟨rfl, -⟩ := Prod.mk.inj h
    exact absurd hr (hd a)

theorem Records.cache_of_server {a b : Records} (h : b.server = a.server) :
    b.cache = { a.cache with texts := b.cache.texts } := by
  obtain ⟨houtage, hrest⟩ := Prod.mk.inj h
  obtain ⟨hgives, hfields⟩ := Prod.mk.inj hrest
  rw [Cache.mk.injEq]
  exact ⟨houtage, hgives, hfields, rfl⟩

namespace Site

structure Genuine (s : Site) : Prop where
  distinct : s.replays.Distinct
  key : Disturbance.Honest s.disturbances.key
  keys : Disturbance.Honest s.disturbances.keys
  scopes : Disturbance.Honest s.disturbances.scopes
  isUsed : Disturbance.Honest s.disturbances.isUsed
  mark : Disturbance.Honest s.disturbances.mark

variable {s s' : Site}

theorem Untouched.genuine (h : Untouched s s') (hs : s.Genuine) : s'.Genuine where
  distinct := h.distinct hs.distinct
  key := h.disturbances ▸ hs.key
  keys := h.disturbances ▸ hs.keys
  scopes := h.disturbances ▸ hs.scopes
  isUsed := h.disturbances ▸ hs.isUsed
  mark := h.disturbances ▸ hs.mark

theorem Untouched.cache (h : Untouched s s') (hd : s.replays.Distinct) :
    s'.cache = { s.cache with texts := s'.cache.texts } :=
  Records.cache_of_server (h.records hd).server

end Site

theorem Act.of_isUsed_gives {s s' : Site} (hs : s.Genuine) {jti : Text} {used : Json}
    (h : (Act.isUsed jti).Gives s used s') :
    used.isTruthy = true ↔ s.records.Holds s.now jti := by
  unfold Gives at h
  rw [outcome_isUsed] at h
  split at h
  · obtain ⟨uptime, context, calls, e⟩ := called_eq s (.isUsed jti) s.disturbances.isUsed
    rw [e] at h
    unfold lookUpAt at h
    rcases Records.isUsed_cases (a := s.records) hs.distinct s.now jti with
      ⟨-, hf⟩ | ⟨-, found, b, hok, hfound, -⟩
    · have hf : s.replays.isUsed s.cache s.now jti = .error Records.readFault := hf
      rw [hf] at h
      cases h
    · have hok : s.replays.isUsed s.cache s.now jti = .ok (found, b.store, b.cache) := hok
      rw [hok] at h
      obtain ⟨hused, -⟩ := Prod.mk.inj h
      obtain rfl := Except.ok.inj hused
      exact hfound
  · next r hr =>
    obtain ⟨rfl, -⟩ := Prod.mk.inj h
    exact absurd hr (hs.isUsed used)

namespace Claims
open Act

variable {settings : Settings} {c : Claims} {s s' : Site} {expiry : Instant}

theorem of_validate_gives (hs : s.Genuine) (h : (validate settings c s.now).Gives s expiry s') :
    c.Keep settings s.now expiry ∧ (c.jwtId ≠ [] → ¬ s.records.Holds s.now c.jwtId) := by
  refine ⟨checkStateless_eq_ok.mp (checkStateless_of_validate h), fun hj hholds => ?_⟩
  have hne : c.jwtId.isEmpty = false := by simpa using hj
  obtain ⟨e, s₁, h₁, h⟩ := gives_bind.mp h
  obtain ⟨-, rfl⟩ := gives_refusing.mp h₁
  rw [hne] at h
  obtain ⟨_, s₂, h₂, h⟩ := gives_bind.mp h
  obtain rfl := of_checkContext_gives h₂
  obtain ⟨used, s₃, h₃, h⟩ := gives_bind.mp h
  rw [SingleUse.isUsed_eq] at h₃
  obtain ⟨_, s₄, h₄, h₃⟩ := gives_bind.mp h₃
  obtain rfl := of_checkContext_gives h₄
  rcases gives_tryCatch.mp h₃ with h₃ | ⟨f, s₅, -, h₃⟩
  · have hused : used.isTruthy = true := (of_isUsed_gives hs h₃).mpr hholds
    rw [hused] at h
    simp only [if_true, gives_bind, gives_throw, false_and, and_false, exists_false] at h
  · exact SingleUse.afterNoAnswer_not_gives h₃

end Claims

variable [Json.Nesting]

/-- A store has a key for a token: the one that the header asks for, or, if it asks for none, the
first of the issuer's and the subject's that signed it. -/
structure KeyStore.Resolves (store : KeyStore) (cache : Cache) (t : Compact) (allowed : List Text)
    (issuer subject : Text) (key : Jwk) : Prop where
  signed : t.SignedBy allowed key
  named : Assertion.keyId t ≠ [] → ∃ scopes, store.find cache (.str issuer) (.str subject)
    (.str (Assertion.keyId t)) = .ok ⟨key, scopes⟩
  first : Assertion.keyId t = [] → ∃ before after, store.list cache (.str issuer) (.str subject) =
    .ok (before ++ key :: after) ∧ ∀ k ∈ before, ¬ t.SignedBy allowed k

section Texts

variable (store : KeyStore) (cache : Cache) (texts : List CachedText) (issuer subject : Json)

theorem KeyStore.find_texts (keyId : Json) : store.find { cache with texts } issuer subject keyId =
    store.find cache issuer subject keyId := by
  cases store <;> rfl

theorem KeyStore.list_texts :
    store.list { cache with texts } issuer subject = store.list cache issuer subject := by
  cases store <;> rfl

end Texts

namespace Site

variable {s s' : Site}

theorem Untouched.find (h : Untouched s s') (hd : s.replays.Distinct)
    (issuer subject keyId : Json) :
    s'.keys.find s'.cache issuer subject keyId = s.keys.find s.cache issuer subject keyId := by
  rw [h.keys, h.cache hd, KeyStore.find_texts]

theorem Untouched.list (h : Untouched s s') (hd : s.replays.Distinct) (issuer subject : Json) :
    s'.keys.list s'.cache issuer subject = s.keys.list s.cache issuer subject := by
  rw [h.keys, h.cache hd, KeyStore.list_texts]

end Site

namespace Act

variable {s s' : Site}

theorem find_of_storedKey_gives {t : Site} {call : StorageCall} {α : Type}
    {d : Option (Disturbance α)} {issuer subject : Text} {keyId : Json} {stored : KeyStore.Stored}
    (h : (storedKey issuer subject keyId).Gives (called t call d) stored s') :
    t.keys.find t.cache (.str issuer) (.str subject) keyId = .ok stored := by
  obtain ⟨_, s₁, h₁, h⟩ := gives_bind.mp h
  obtain ⟨rfl, rfl⟩ := gives_get.mp h₁
  obtain ⟨uptime, context, calls, e⟩ := called_eq t call d
  rw [e] at h
  unfold Gives at h
  rw [outcome_faulting] at h
  exact mapError_eq_ok.mp (Prod.mk.inj h).1

variable {issuer subject keyId : Text}

theorem of_publicKey_gives (hd : Disturbance.Honest s.disturbances.key) {given : Option Jwk}
    (h : (publicKey issuer subject keyId).Gives s given s') :
    ∃ stored, s.keys.find s.cache (.str issuer) (.str subject) (.str keyId) = .ok stored ∧
      given = some stored.key := by
  obtain ⟨stored, s₁, h₁, h⟩ := gives_bind.mp (gives_storage hd h)
  exact ⟨stored, find_of_storedKey_gives h₁, (gives_pure.mp h).1.symm⟩

theorem of_publicKeyScopes_gives (hs : s.Genuine) {keyId scopes : Json}
    (h : (publicKeyScopes issuer subject keyId).Gives s scopes s') :
    ∃ stored, s.keys.find s.cache (.str issuer) (.str subject) keyId = .ok stored ∧
      scopes = .arr stored.scopes := by
  obtain ⟨stored, s₁, h₁, h⟩ := gives_bind.mp (gives_storage hs.scopes h)
  exact ⟨stored, find_of_storedKey_gives h₁, (gives_pure.mp h).1.symm⟩

theorem of_publicKeys_gives (hd : Disturbance.Honest s.disturbances.keys)
    {given : Option (List (Option Jwk))}
    (h : (publicKeys issuer subject).Gives s given s') :
    ∃ keys, s.keys.list s.cache (.str issuer) (.str subject) = .ok keys ∧
      given = some (keys.map some) := by
  obtain ⟨_, s₁, h₁, h⟩ := gives_bind.mp (gives_storage hd h)
  obtain ⟨rfl, rfl⟩ := gives_get.mp h₁
  obtain ⟨keys, s₂, h₂, h⟩ := gives_bind.mp h
  obtain ⟨uptime, context, calls, e⟩ := called_eq s (.keys issuer subject) s.disturbances.keys
  refine ⟨keys, ?_, (gives_pure.mp h).1.symm⟩
  unfold Gives at h₂
  rw [outcome_faulting, e] at h₂
  exact mapError_eq_ok.mp (Prod.mk.inj h₂).1

end Act

namespace Signer
open Act

variable {t : Compact} {allowed : List Text} {issuer subject : Text} {s s' : Site}
  {key : Jwk} {payload : Fields}

theorem of_findNamed_gives {keyId : Text} (hd : Disturbance.Honest s.disturbances.key)
    (h : (findNamed t allowed issuer subject keyId).Gives s (key, payload) s') :
    ∃ scopes, s.keys.find s.cache (.str issuer) (.str subject) (.str keyId) =
      .ok ⟨key, scopes⟩ := by
  obtain ⟨_, s₁, h₁, h⟩ := gives_bind.mp h
  obtain rfl := of_checkContext_gives h₁
  obtain ⟨given, s₂, h₂, h⟩ := gives_bind.mp h
  obtain ⟨_, s₃, -, h⟩ := gives_bind.mp h
  rcases gives_tryCatch.mp h₂ with h₂ | ⟨f, s₄, -, h₂⟩
  · obtain ⟨⟨key', scopes⟩, hfind, rfl⟩ := of_publicKey_gives hd h₂
    dsimp only at h
    split at h
    · obtain ⟨e, -⟩ := gives_pure.mp h
      obtain ⟨rfl, -⟩ := Prod.mk.inj e
      exact ⟨scopes, hfind⟩
    · simp only [gives_bind, gives_throw, and_false, exists_false] at h
    · exact absurd h gives_throw
  · exact absurd h₂ lookupFailed_not_gives

theorem of_firstVerifying_gives {keys : List Jwk}
    (h : (firstVerifying t allowed issuer subject (keys.map some)).Gives s (key, payload) s') :
    ∃ before after, keys = before ++ key :: after ∧
      ∀ k ∈ before, Assertion.verify t k.material allowed ≠ .ok payload := by
  induction keys generalizing s with
  | nil => exact absurd h gives_throw
  | cons key' rest ih =>
    obtain ⟨_, _, -, h⟩ := gives_bind.mp h
    dsimp only at h
    split at h
    · obtain ⟨_, _, -, h⟩ := gives_bind.mp h
      obtain ⟨e, -⟩ := gives_pure.mp h
      obtain ⟨rfl, -⟩ := Prod.mk.inj e
      exact ⟨[], rest, rfl, nofun⟩
    · next hv =>
      obtain ⟨before, after, rfl, hbefore⟩ := ih h
      refine ⟨key' :: before, after, rfl, List.forall_mem_cons.mpr ⟨?_, hbefore⟩⟩
      rw [hv]
      nofun
    · exact absurd h gives_throw

theorem resolves_of_find_gives (hd : Disturbance.Honest s.disturbances.key)
    (hd' : Disturbance.Honest s.disturbances.keys)
    (h : (find t allowed issuer subject).Gives s (key, payload) s') :
    s.keys.Resolves s.cache t allowed issuer subject key := by
  obtain ⟨hsigned, hclaims⟩ := Assertion.verify_eq_ok.mp (verify_of_find h)
  refine ⟨hsigned, fun hid => ?_, fun hid => ?_⟩
  · have hne : (Assertion.keyId t).isEmpty = false := by simpa using hid
    unfold find at h
    dsimp only at h
    rw [hne] at h
    exact of_findNamed_gives hd h
  · unfold find at h
    dsimp only at h
    rw [hid] at h
    obtain ⟨_, s₁, h₁, h⟩ := gives_bind.mp h
    obtain rfl := of_checkContext_gives h₁
    obtain ⟨given, s₂, h₂, h⟩ := gives_bind.mp h
    rcases gives_tryCatch.mp h₂ with h₂ | ⟨f, s₄, -, h₂⟩
    · obtain ⟨keys, hlist, rfl⟩ := of_publicKeys_gives hd' h₂
      obtain ⟨before, after, rfl, hbefore⟩ := of_firstVerifying_gives h
      refine ⟨before, after, hlist, fun k hk hsigned' => ?_⟩
      exact hbefore k hk (Assertion.verify_eq_ok.mpr ⟨hsigned', hclaims⟩)
    · exact absurd h₂ lookupFailed_not_gives

end Signer

namespace Grant
open Act

structure Findings where
  token : Compact := ⟨[], [], [], []⟩
  issuer : Text := ""
  subject : Text := ""
  key : Jwk := ⟨[], .absent⟩
  claims : Claims := {}
  expiry : Instant := ⟨0⟩

namespace Findings

def keyId (d : Findings) : Json := if d.key.id.isTruthy then d.key.id else .str ""

structure Read (d : Findings) (g : Grant) (r : AccessRequest) : Prop where
  screened : g.screen r = .ok ()
  parsed : ∃ raw, r.parameter? "assertion" = some raw ∧ Compact.parse raw = .ok d.token
  named : ∃ fields, d.token.unverifiedClaims = .ok fields ∧
    fields.get? "iss" = some (.str d.issuer) ∧ fields.get? "sub" = some (.str d.subject)
  issuer : d.issuer ≠ []
  subject : d.subject ≠ []

structure Verified (d : Findings) (g : Grant) (s : Site) : Prop where
  resolved : s.keys.Resolves s.cache d.token g.settings.algorithms d.issuer d.subject d.key
  spelled : ∃ fields, d.token.unverifiedClaims = .ok fields ∧ Claims.ofFields fields = .ok d.claims
  issuer : d.claims.issuer = d.issuer
  subject : d.claims.subject = d.subject
  rules : d.claims.Keep g.settings s.now d.expiry

def Fresh (d : Findings) (s : Site) : Prop :=
  d.claims.jwtId ≠ [] → ¬ s.records.Holds s.now d.claims.jwtId

structure Covered (d : Findings) (g : Grant) (r : AccessRequest) (s : Site) : Prop where
  scopes : ∃ stored, s.keys.find s.cache (.str d.issuer) (.str d.subject) d.keyId = .ok stored ∧
    ∀ scope ∈ r.scopes, g.scopes (.arr stored.scopes) scope = .ok true
  audience : g.settings.matchRequestedAudience = true →
    g.audience d.claims.audience r.audience = .ok ()

theorem Covered.of_untouched {d : Findings} {g : Grant} {r : AccessRequest} {s s' : Site}
    (h : d.Covered g r s') (hs : s.Genuine) (hq : Site.Untouched s s') : d.Covered g r s := by
  obtain ⟨stored, hfind, hcovered⟩ := h.scopes
  rw [hq.find hs.distinct] at hfind
  exact ⟨⟨stored, hfind, hcovered⟩, h.audience⟩

end Findings

variable {g : Grant} {r : AccessRequest} {s s' : Site} {f : Failure} {raw : String}

def verifiedBy (g : Grant) (t : Compact) (issuer subject : Text) :
    Act (Claims × Json × Instant) := do
  let (key, payload) ← Signer.find t g.settings.algorithms issuer subject
  let claims ← Act.refusing (Assertion.claimsOf payload)
  let expiresAt ← Claims.validate g.settings claims (← get).now
  pure (claims, if key.id.isTruthy then key.id else .str "", expiresAt)

theorem verifiedClaims_eq (g : Grant) (raw : String) : g.verifiedClaims raw =
    Act.refusing (Assertion.parse raw) >>= fun t => Act.refusing (issuerAndSubject t) >>=
      fun named => g.verifiedBy t named.1 named.2 := rfl

section Tokens

variable {t : Compact} {issuer subject : Text} {fields : Fields} {c : Claims} {expiry : Instant}

theorem verified_of_find (hs : s.Genuine) {key : Jwk} {payload : Fields}
    (hclaims : t.unverifiedClaims = .ok fields)
    (hissuer : fields.get? "iss" = some (.str issuer))
    (hsubject : fields.get? "sub" = some (.str subject))
    (h : (Signer.find t g.settings.algorithms issuer subject).Gives s (key, payload) s')
    (hc : Assertion.claimsOf payload = .ok c)
    (hrules : Claims.checkStateless g.settings c s'.now = .ok expiry) :
    (⟨t, issuer, subject, key, c, expiry⟩ : Findings).Verified g s := by
  have hpayload := (Assertion.verify_eq_ok.mp (Signer.verify_of_find h)).2
  obtain rfl := Except.ok.inj (hclaims.symm.trans hpayload)
  have hspelled := mapError_eq_ok.mp hc
  obtain ⟨hi, hsub⟩ := Claims.issuer_subject_of_ofFields hspelled hissuer hsubject
  have hkeep := Claims.checkStateless_eq_ok.mp hrules
  rw [(Signer.quiet_find.of_gives h).now] at hkeep
  exact ⟨Signer.resolves_of_find_gives hs.key hs.keys h, ⟨fields, hclaims, hspelled⟩, hi, hsub, hkeep⟩

theorem of_verifiedBy_gives (hs : s.Genuine) {keyId : Json}
    (hclaims : t.unverifiedClaims = .ok fields)
    (hissuer : fields.get? "iss" = some (.str issuer))
    (hsubject : fields.get? "sub" = some (.str subject))
    (h : (g.verifiedBy t issuer subject).Gives s (c, keyId, expiry) s') :
    ∃ d : Findings, d.token = t ∧ d.issuer = issuer ∧ d.subject = subject ∧ d.claims = c ∧
      d.expiry = expiry ∧ d.keyId = keyId ∧ d.Verified g s ∧ d.Fresh s := by
  obtain ⟨⟨key, payload⟩, s₁, h₁, h⟩ := gives_bind.mp h
  have hq := Signer.quiet_find.of_gives h₁
  obtain ⟨c', s₂, h₂, h⟩ := gives_bind.mp h
  obtain ⟨hc, rfl⟩ := gives_refusing.mp h₂
  obtain ⟨_, s₃, h₃, h⟩ := gives_bind.mp h
  obtain ⟨rfl, rfl⟩ := gives_get.mp h₃
  obtain ⟨e, s₄, h₄, h⟩ := gives_bind.mp h
  obtain ⟨he, -⟩ := gives_pure.mp h
  obtain ⟨rfl, rfl, rfl⟩ := by simpa only [Prod.mk.injEq] using he
  have hfresh := (Claims.of_validate_gives (hq.genuine hs) h₄).2
  rw [hq.now] at hfresh
  have hverified := verified_of_find hs hclaims hissuer hsubject h₁ hc
    (Claims.checkStateless_of_validate h₄)
  refine ⟨_, rfl, rfl, rfl, rfl, rfl, rfl, hverified, fun hj hholds => hfresh hj ?_⟩
  exact ((hq.records hs.distinct).holds_now).mpr hholds

end Tokens

theorem of_authorize_gives (hs : s.Genuine) {d : Findings} {u : Unit}
    (hissuer : d.claims.issuer = d.issuer) (hsubject : d.claims.subject = d.subject)
    (h : (g.authorize r d.claims d.keyId).Gives s u s') : d.Covered g r s := by
  obtain ⟨scopes, s₁, h₁, h⟩ := gives_bind.mp h
  obtain ⟨_, s₂, h₂, h⟩ := gives_bind.mp h
  obtain ⟨hcovered, rfl⟩ := gives_orFail.mp h₂
  obtain ⟨_, s₃, h₃, h₁⟩ := gives_bind.mp h₁
  obtain rfl := of_checkContext_gives h₃
  refine ⟨?_, fun hmatch => ?_⟩
  · rcases gives_tryCatch.mp h₁ with h₁ | ⟨f, s₄, -, h₁⟩
    · obtain ⟨stored, hfind, rfl⟩ := of_publicKeyScopes_gives hs h₁
      rw [hissuer, hsubject] at hfind
      exact ⟨stored, hfind, Scope.authorize_eq_ok.mp hcovered⟩
    · split at h₁ <;> exact absurd h₁ gives_throw
  · rw [hmatch] at h
    exact (gives_orFail.mp h).1

end Grant
end AssertionGrant
