import AssertionGrant.Proofs.Accounts
import AssertionGrant.Proofs.Undisturbed

/-! What the gates account for. On its own account a request fails with a refusal of a kind that the
first phase announces, with a fault, or with what the rule for scopes, the rule for audiences or its
session fails with. -/

namespace AssertionGrant
open Act

/-- The kinds of refusal that the first phase announces. -/
def Grant.announced : List RefusalKind :=
  [.unknownRequest, .unauthorizedClient, .invalidRequest, .invalidGrant, .replayed, .invalidScope,
    .serverError]

namespace Grant

structure Allows (V : Failure → Prop) : Prop where
  refusal : ∀ q : Refusal, q.kind ∈ announced → V (.refusal q)
  fault : ∀ e, V (.fault e)

theorem allows_any : Allows fun _ => True := ⟨fun _ _ => trivial, fun _ => trivial⟩

theorem announced_invalidGrant : RefusalKind.invalidGrant ∈ announced := by decide

theorem announced_serverError : RefusalKind.serverError ∈ announced := by decide

variable {g : Grant} {r : AccessRequest} {f : Failure}

/-! What needs no storage is refused in the announced kinds. -/

theorem announced_of_screen (h : g.screen r = .error f) :
    ∃ q, f = .refusal q ∧ q.kind ∈ announced := by
  unfold screen at h
  split at h
  · exact ⟨_, (Except.error.inj h).symm, by decide⟩
  · split at h
    · cases h
    · exact ⟨_, (Except.error.inj h).symm, by decide⟩

theorem announced_of_assertionOf (h : assertionOf r = .error f) :
    ∃ q, f = .refusal q ∧ q.kind ∈ announced := by
  unfold assertionOf at h
  split at h
  · exact ⟨_, (Except.error.inj h).symm, by decide⟩
  · exact ⟨_, (Except.error.inj h).symm, by decide⟩
  · cases h

theorem announced_of_sessionOf (h : sessionOf r = .error f) :
    ∃ q, f = .refusal q ∧ q.kind ∈ announced := by
  unfold sessionOf at h
  split at h
  · split at h
    · cases h
    · exact ⟨_, (Except.error.inj h).symm, announced_serverError⟩
  · exact ⟨_, (Except.error.inj h).symm, announced_serverError⟩

theorem kind_of_requiredText {fields : Fields} {name : String} {described : Text} {q : Refusal}
    (h : requiredText fields name described = .error q) : q.kind = .invalidGrant := by
  unfold requiredText at h
  split at h <;> cases h
  all_goals rfl

variable [Json.Nesting]

structure RulesAllowed (g : Grant) (r : AccessRequest) (s : Site) (V : Failure → Prop) : Prop where
  scopes : ∀ (c : Claims) keyId scopes f, s.scopesAt c.issuer c.subject keyId = .ok scopes →
    Scope.authorize g.scopes scopes r.scopes c.issuer c.subject = .error f → V f
  audience : ∀ (c : Claims) f, g.audience c.audience r.audience = .error f → V f

theorem kind_of_issuerAndSubject {t : Compact} {q : Refusal}
    (h : issuerAndSubject t = .error q) : q.kind = .invalidGrant := by
  rcases bind_eq_error.mp h with h | ⟨fields, -, h⟩
  · obtain ⟨f, -, rfl⟩ := mapError_eq_error.mp h
    rfl
  rcases bind_eq_error.mp h with h | ⟨issuer, -, h⟩
  · exact kind_of_requiredText h
  rcases bind_eq_error.mp h with h | ⟨subject, -, h⟩
  · exact kind_of_requiredText h
  · cases h

end Grant

section Context

theorem Act.checkContext_cases (s : Site) :
    s.Live ∧ checkContext.outcome s = (.ok (), s) ∨
      ¬ s.Live ∧ ∃ q, q.kind = .serverError ∧ checkContext.outcome s = (.error (.refusal q), s) := by
  by_cases hlive : s.Live
  · exact .inl ⟨hlive, gives_checkContext hlive⟩
  · refine .inr ⟨hlive, ?_⟩
    unfold Site.Live at hlive
    push Not at hlive
    obtain ⟨c, hc, hcheck⟩ := hlive
    unfold checkContext
    rw [outcome_bind, outcome_get]
    dsimp only
    rw [hc]
    dsimp only
    rw [outcome_refusing]
    unfold Context.check at hcheck ⊢
    split
    · exact ⟨_, rfl, rfl⟩
    · split
      · exact ⟨_, rfl, rfl⟩
      · next h h' => simp [h, h'] at hcheck

end Context

theorem Site.advances_recording {s : Site} (call : StorageCall) (records : Records) :
    s.Advances (recording (s.after call) records) [call] :=
  (s.advances_after call).trans ⟨rfl, (List.append_nil _).symm, rfl, rfl, rfl, fun _ => rfl⟩

theorem Site.advances_log (s : Site) (log : List LogEntry) : s.Advances { s with log } [] :=
  ⟨rfl, (List.append_nil _).symm, rfl, rfl, rfl, fun _ => rfl⟩

theorem Signer.fails_lookupFailed {α : Type} {issuer subject : Text} {call : StorageCall}
    (hcall : ∀ f, call.raises f =
      if f.isServerError then f else .refusal (notFound issuer subject (some f.text)))
    (entry : Text → LogEntry) (f : Failure) (s : Site) :
    ∃ s', (lookupFailed issuer subject entry f : Act α).Fails s (call.raises f) s' ∧
      s.Advances s' [] := by
  rw [hcall]
  unfold lookupFailed
  split
  · exact ⟨s, rfl, .refl s⟩
  · exact ⟨_, rfl, s.advances_log _⟩

variable [Json.Nesting] {s₀ : Site} {V : Failure → Prop}

theorem Act.accounts_checkContext (hV : Grant.Allows V) : checkContext.Accounts s₀ V := by
  refine accounts_of_idle (fun s => ?_) fun s f s' h => ?_
  · rcases checkContext_cases s with ⟨-, e⟩ | ⟨-, q, -, e⟩ <;> rw [e] <;> exact .refl s
  · rcases checkContext_cases s with ⟨-, e⟩ | ⟨-, q, hq, e⟩
    · cases (Prod.mk.inj (e.symm.trans h)).1
    · obtain ⟨hf, -⟩ := Prod.mk.inj (e.symm.trans h)
      rw [← Except.error.inj hf]
      exact hV.refusal q (hq ▸ Grant.announced_serverError)

section Gates

variable (hd : s₀.replays.Distinct) (hV : Grant.Allows V)

include hd hV

theorem SingleUse.accounts_isUsed (jti : Text) : (isUsed jti).Accounts s₀ V := by
  rw [isUsed_eq]
  refine (accounts_checkContext hV).bind quiet_checkContext fun _ _ => ?_
  refine accounts_call (.isUsed jti) hd (fun s => ?_) (fun s => ?_) fun f s => ?_
  · rw [fst_outcome_isUsed]
    rfl
  · obtain ⟨records, e⟩ := snd_outcome_isUsed s jti
    rw [e]
    exact Site.advances_recording _ _
  · cases f with
    | refusal r => exact ⟨s, rfl, .refl s⟩
    | fault e => exact ⟨_, rfl, s.advances_log _⟩

theorem SingleUse.accounts_mark (jti : Text) (expiry : Instant) :
    (mark jti expiry).Accounts s₀ V := by
  refine (accounts_checkContext hV).bind quiet_checkContext fun _ _ => ?_
  refine accounts_call (.mark jti expiry) hd (fun s => ?_) (fun s => ?_) fun f s => ?_
  · rw [fst_outcome_mark]
    rfl
  · obtain ⟨records, e⟩ := snd_outcome_mark s jti expiry
    rw [e]
    exact Site.advances_recording _ _
  · cases f with
    | refusal r =>
      dsimp only
      split
      · exact ⟨_, rfl, s.advances_log _⟩
      · exact ⟨s, rfl, .refl s⟩
    | fault e => exact ⟨_, rfl, s.advances_log _⟩

theorem Claims.accounts_validate (settings : Settings) (c : Claims) (now : Instant) :
    (validate settings c now).Accounts s₀ V := by
  refine Accounts.bind ?_ (quiet_refusing _) fun expiry _ => ?_
  · refine accounts_refusing fun q hq => hV.refusal q ?_
    cases hr : checkStateless settings c now with
    | ok e =>
      rw [hr] at hq
      cases hq
    | error v =>
      rw [hr] at hq
      rw [← Except.error.inj hq]
      exact Grant.announced_invalidGrant
  split
  · refine (accounts_checkContext hV).bind quiet_checkContext fun _ _ => ?_
    refine (SingleUse.accounts_isUsed hd hV _).bind (SingleUse.quiet_isUsed _) fun used _ => ?_
    split
    · refine (accounts_note _).bind (quiet_note _) fun _ _ => ?_
      refine Accounts.bind ?_ (quiet_throw _) fun _ _ => accounts_pure _
      exact accounts_throw (hV.refusal (.bare .replayed) (by decide))
    · exact accounts_pure _
  · exact accounts_pure _

namespace Signer

variable {t : Compact} {allowed : List Text} {issuer subject : Text}

omit hd in
theorem accounts_firstVerifying (keys : List (Option Jwk)) :
    (firstVerifying t allowed issuer subject keys).Accounts s₀ V := by
  induction keys with
  | nil => exact accounts_throw (hV.refusal (notFound issuer subject none) Grant.announced_invalidGrant)
  | cons given rest ih =>
    refine (accounts_checkContext hV).bind quiet_checkContext fun _ _ => ?_
    cases given with
    | none => exact accounts_throw (hV.fault _)
    | some key =>
      dsimp only
      split
      · exact (accounts_note _).bind (quiet_note _) fun _ _ => accounts_pure _
      · exact ih
      · exact accounts_throw (hV.fault _)

theorem accounts_findNamed (keyId : Text) :
    (findNamed t allowed issuer subject keyId).Accounts s₀ V := by
  have hquiet := (quiet_publicKey issuer subject keyId).tryCatch fun f =>
    quiet_lookupFailed issuer subject (.keyMissing issuer subject keyId) f
  refine (accounts_checkContext hV).bind quiet_checkContext fun _ _ => ?_
  refine Accounts.bind ?_ hquiet fun given _ => ?_
  · refine accounts_call (.key issuer subject keyId) hd (fun s => ?_) (fun s => ?_)
      (fails_lookupFailed (fun f => rfl) _)
    · rw [outcome_publicKey]
      rfl
    · rw [outcome_publicKey]
      exact s.advances_after (.key issuer subject keyId)
  refine (accounts_checkContext hV).bind quiet_checkContext fun _ _ => ?_
  cases given with
  | none => exact accounts_throw (hV.fault _)
  | some key =>
    dsimp only
    split
    · exact accounts_pure _
    · next r _ =>
      refine (accounts_note _).bind (quiet_note _) fun _ _ => ?_
      exact accounts_throw (hV.refusal (notFound issuer subject r.debug) Grant.announced_invalidGrant)
    · exact accounts_throw (hV.fault _)

theorem accounts_find : (find t allowed issuer subject).Accounts s₀ V := by
  unfold find
  dsimp only
  split
  · exact accounts_findNamed hd hV _
  · have hquiet := (quiet_publicKeys issuer subject).tryCatch fun f =>
      quiet_lookupFailed issuer subject (.listingFailed issuer subject) f
    refine (accounts_checkContext hV).bind quiet_checkContext fun _ _ => ?_
    refine Accounts.bind ?_ hquiet fun given _ => ?_
    · refine accounts_call (.keys issuer subject) hd (fun s => ?_) (fun s => ?_)
        (fails_lookupFailed (fun f => rfl) _)
      · rw [outcome_publicKeys]
        rfl
      · rw [outcome_publicKeys]
        exact s.advances_after (.keys issuer subject)
    cases given with
    | none => exact accounts_throw (hV.fault _)
    | some keys => exact accounts_firstVerifying hV keys

end Signer

namespace Grant

variable {g : Grant} {r : AccessRequest}

theorem accounts_verifiedClaims (g : Grant) (raw : String) :
    (g.verifiedClaims raw).Accounts s₀ V := by
  have hparse (q : Refusal) (hq : Assertion.parse raw = .error q) : V (.refusal q) := by
    obtain ⟨f, -, rfl⟩ := mapError_eq_error.mp hq
    exact hV.refusal _ announced_invalidGrant
  refine (accounts_refusing hparse).bind (quiet_refusing _) fun t _ => ?_
  refine Accounts.bind (accounts_refusing fun q hq => hV.refusal q ?_) (quiet_refusing _)
    fun named _ => ?_
  · rw [kind_of_issuerAndSubject hq]
    exact announced_invalidGrant
  refine (Signer.accounts_find hd hV).bind Signer.quiet_find fun found _ => ?_
  have hclaims (q : Refusal) (hq : Assertion.claimsOf found.2 = .error q) : V (.refusal q) := by
    obtain ⟨p, -, rfl⟩ := mapError_eq_error.mp hq
    exact hV.refusal _ announced_invalidGrant
  refine (accounts_refusing hclaims).bind (quiet_refusing _) fun c _ => ?_
  refine accounts_get_bind fun s => ?_
  exact (Claims.accounts_validate hd hV _ _ _).map _

variable (hrules : g.RulesAllowed r s₀ V)

theorem accounts_scopesOf (c : Claims) (keyId : Json) : (scopesOf c keyId).Accounts s₀ V := by
  refine (accounts_checkContext hV).bind quiet_checkContext fun _ _ => ?_
  refine accounts_call (.scopes c.issuer c.subject keyId) hd (fun s => ?_) (fun s => ?_)
    fun f s => ?_
  · rw [outcome_publicKeyScopes]
    rfl
  · rw [outcome_publicKeyScopes]
    exact s.advances_after (.scopes c.issuer c.subject keyId)
  · unfold StorageCall.raises
    dsimp only
    split
    · exact ⟨s, rfl, .refl s⟩
    · exact ⟨s, rfl, .refl s⟩

omit hV in
theorem scopesAt_of_scopesOf_gives {c : Claims} {keyId scopes : Json} {s s' : Site}
    (hs : Site.Untouched s₀ s) (h : (scopesOf c keyId).Gives s scopes s') :
    s₀.scopesAt c.issuer c.subject keyId = .ok scopes := by
  obtain ⟨_, s₁, h₁, h⟩ := gives_bind.mp h
  obtain rfl := of_checkContext_gives h₁
  rcases gives_tryCatch.mp h with h | ⟨f, s₂, -, h⟩
  · unfold Gives at h
    rw [outcome_publicKeyScopes] at h
    rw [← hs.scopesAt hd, (Prod.mk.inj h).1]
  · split at h <;> exact absurd h gives_throw

include hrules in
theorem accounts_authorize (c : Claims) (keyId : Json) :
    (g.authorize r c keyId).Accounts s₀ V := by
  have hquiet : (scopesOf c keyId).Quiet := quiet_scopesOf c keyId
  refine (accounts_scopesOf hd hV c keyId).bind hquiet fun scopes hgiven => ?_
  obtain ⟨s, s', hs, hgiven⟩ := hgiven
  have hat := scopesAt_of_scopesOf_gives hd hs hgiven
  refine Accounts.bind ?_ (quiet_orFail _) fun _ _ => ?_
  · exact accounts_orFail fun f hf => hrules.scopes c keyId scopes f hat hf
  · split
    · exact accounts_orFail fun f hf => hrules.audience c f hf
    · exact accounts_pure _

include hrules in
theorem accounts_examine : (g.examine r).Accounts s₀ V := by
  have hscreen (f : Failure) (hf : g.screen r = .error f) : V f := by
    obtain ⟨q, rfl, hq⟩ := announced_of_screen hf
    exact hV.refusal q hq
  have hassertion (f : Failure) (hf : assertionOf r = .error f) : V f := by
    obtain ⟨q, rfl, hq⟩ := announced_of_assertionOf hf
    exact hV.refusal q hq
  refine (accounts_orFail hscreen).bind (quiet_orFail _) fun _ _ => ?_
  refine (accounts_orFail hassertion).bind (quiet_orFail _) fun raw _ => ?_
  refine (accounts_verifiedClaims hd hV g raw).bind (quiet_verifiedClaims g raw)
    fun found _ => ?_
  exact (accounts_authorize hd hV hrules found.1 found.2.1).map _

include hrules in
theorem accounts_clear : (g.clear r).Accounts s₀ V := by
  rw [clear_eq]
  refine (accounts_examine hd hV hrules).bind (quiet_examine g r) fun found _ => ?_
  refine Accounts.map ?_ _
  split
  · exact SingleUse.accounts_mark hd hV _ _
  · exact accounts_pure _

include hrules in
theorem accounts_approve : (g.approve r).Accounts s₀ V := by
  have houtcome (c : Claims) (s : Site) :
      (orFail (sessionOf r) >>= fun session => pure (c, session)).outcome s =
        ((sessionOf r).map (c, ·), s) := by
    rw [outcome_bind, outcome_orFail]
    cases sessionOf r <;> rfl
  rw [approve_eq]
  refine (accounts_clear hd hV hrules).bind_idle (fun c s => ?_) fun c s f s' h => ?_
  · rw [houtcome]
    exact .refl s
  · unfold Fails at h
    rw [houtcome] at h
    cases hsession : sessionOf r with
    | ok session =>
      rw [hsession] at h
      cases (Prod.mk.inj h).1
    | error f' =>
      rw [hsession] at h
      obtain rfl := Except.error.inj (Prod.mk.inj h).1
      obtain ⟨q, rfl, hq⟩ := announced_of_sessionOf hsession
      exact hV.refusal q hq

end Grant
end Gates

namespace Grant

variable {g : Grant} {r : AccessRequest} {s : Site}

theorem rulesAllowed_any : g.RulesAllowed r s fun _ => True :=
  ⟨fun _ _ _ _ _ _ => trivial, fun _ _ _ => trivial⟩

theorem sessionOf_of_approve_gives {c : Claims} {session : Session} {s' : Site}
    (h : (g.approve r).Gives s (c, session) s') : sessionOf r = .ok session := by
  rw [approve_eq] at h
  obtain ⟨c', s₁, -, h⟩ := gives_bind.mp h
  obtain ⟨session', s₂, h₂, h⟩ := gives_bind.mp h
  obtain ⟨hsession, -⟩ := gives_orFail.mp h₂
  obtain ⟨e, -⟩ := gives_pure.mp h
  obtain ⟨-, rfl⟩ := Prod.mk.inj e
  exact hsession

/-- What a request fails with, after which calls: an accepted one has had all its calls answered, and
one that failed did so on its own account or because its last call failed. -/
theorem accounts_handled (hd : s.replays.Distinct) (hV : Allows V) (hrules : g.RulesAllowed r s V)
    (hsession : ∀ session f, sessionOf r = .ok session → session.failure? = some f → V f) :
    ∃ made, s.Advances (g.handled r s).2 made ∧
      ((g.handled r s).1.result = .ok () → s.Answered made) ∧
      ∀ f, (g.handled r s).1.result = .error f → s.Ends V made f := by
  have happrove := accounts_approve hd hV hrules
  rw [handled_eq_conclude]
  rcases (g.approve r).gives_or_fails s with ⟨⟨c, session⟩, s', h⟩ | ⟨f, s', h⟩
  · obtain ⟨made, hadvances, hanswered⟩ := happrove.gives (.refl s) h
    obtain ⟨log, e⟩ := conclude_ok g r c session s'
    rw [h, e]
    have hall := hadvances.trans (s'.advances_log log)
    rw [List.append_nil] at hall
    refine ⟨made, hall, fun _ => hanswered, fun f hf => .own hanswered ?_⟩
    rcases settle_eq_error.mp hf with ⟨-, rfl⟩ | ⟨-, hfails⟩
    · exact hV.fault _
    · exact hsession session f (sessionOf_of_approve_gives h) hfails
  · obtain ⟨made, hadvances, hends⟩ := happrove.fails (.refl s) h
    obtain ⟨log, e⟩ := conclude_error g r f s'
    rw [h, e]
    have hall := hadvances.trans (s'.advances_log log)
    rw [List.append_nil] at hall
    refine ⟨made, hall, nofun, fun f' hf' => ?_⟩
    obtain rfl := Except.error.inj hf'
    exact hends

end Grant

end AssertionGrant
