import AssertionGrant.Proofs.Offers
import AssertionGrant.Proofs.Registered

/-! Faults of the first phase. What a storage raises is turned into a refusal on the way, and so is
whatever is wrong with an assertion. A fault comes up in two places only: where a key is tried that
is no use for its purpose, and where the expiry of the token to be issued is reckoned. -/

namespace AssertionGrant

namespace Act

variable {α β : Type} {x : Act α}

def Refuses (x : Act α) : Prop := ∀ s f s', x.Fails s f s' → ∃ q, f = .refusal q

theorem Refuses.not_fault (h : x.Refuses) {s s' : Site} {e : Fault} :
    ¬ x.Fails s (.fault e) s' := by
  intro hf
  obtain ⟨q, hq⟩ := h s _ s' hf
  cases hq

theorem refuses_pure (a : α) : (pure a : Act α).Refuses := fun _ _ _ h => absurd h fails_pure

theorem refuses_throw (q : Refusal) : (throw (.refusal q) : Act α).Refuses := by
  intro s f s' h
  exact ⟨q, (Except.error.inj (Prod.mk.inj h).1).symm⟩

theorem refuses_note (entry : LogEntry) : (note entry).Refuses := by
  intro s f s' h
  cases (Prod.mk.inj h).1

theorem refuses_refusing (r : Except Refusal α) : (refusing r).Refuses := by
  cases r with
  | ok a => exact refuses_pure a
  | error q => exact refuses_throw q

theorem Refuses.bind {k : α → Act β} (hx : x.Refuses) (hk : ∀ a, (k a).Refuses) :
    (x >>= k).Refuses := by
  intro s f s' h
  rcases fails_bind.mp h with h | ⟨a, s₁, -, h⟩
  · exact hx s f s' h
  · exact hk a s₁ f s' h

theorem refuses_tryCatch {k : Failure → Act α} (hk : ∀ f, (k f).Refuses) :
    (tryCatch x k).Refuses := by
  intro s f s' h
  obtain ⟨f', s₁, -, h⟩ := fails_tryCatch.mp h
  exact hk f' s₁ f s' h

theorem refuses_checkContext : checkContext.Refuses := by
  intro s f s' h
  rcases checkContext_cases s with ⟨-, e⟩ | ⟨-, q, -, e⟩
  · cases (Prod.mk.inj (e.symm.trans h)).1
  · exact ⟨q, (Except.error.inj (Prod.mk.inj (e.symm.trans h)).1).symm⟩

end Act

open Act

theorem Failure.refusal_of_isServerError {f : Failure} (h : f.isServerError = true) :
    ∃ q, f = .refusal q := by
  cases f with
  | refusal q => exact ⟨q, rfl⟩
  | fault e => cases h

section Gates

theorem SingleUse.refuses_isUsed (jti : Text) : (isUsed jti).Refuses := by
  refine refuses_checkContext.bind fun _ => refuses_tryCatch fun f => ?_
  cases f with
  | refusal q => exact refuses_throw q
  | fault e => exact (refuses_note _).bind fun _ => refuses_throw _

theorem SingleUse.refuses_mark (jti : Text) (expiry : Instant) : (mark jti expiry).Refuses := by
  refine refuses_checkContext.bind fun _ => refuses_tryCatch fun f => ?_
  cases f with
  | refusal q =>
    dsimp only
    split
    · exact (refuses_note _).bind fun _ => refuses_throw q
    · exact refuses_throw q
  | fault e => exact (refuses_note _).bind fun _ => refuses_throw _

theorem Claims.refuses_validate (settings : Settings) (c : Claims) (now : Instant) :
    (validate settings c now).Refuses := by
  refine (refuses_refusing _).bind fun _ => ?_
  split
  · refine refuses_checkContext.bind fun _ => (SingleUse.refuses_isUsed _).bind fun _ => ?_
    split
    · exact (refuses_note _).bind fun _ => (refuses_throw _).bind fun _ => refuses_pure _
    · exact refuses_pure _
  · exact refuses_pure _

variable [Json.Nesting]

theorem Grant.refuses_scopesOf (c : Claims) (keyId : Json) : (scopesOf c keyId).Refuses := by
  refine refuses_checkContext.bind fun _ => refuses_tryCatch fun f => ?_
  split
  · next h =>
    obtain ⟨q, rfl⟩ := Failure.refusal_of_isServerError h
    exact refuses_throw q
  · exact refuses_throw _

end Gates

theorem StorageCall.raises_cases (call : StorageCall) (f : Failure) :
    (∃ q, f = .refusal q ∧ call.raises f = f) ∨
      ∃ q, call.raises f = .refusal q ∧ q.kind ∈ Grant.announced := by
  unfold raises
  cases call with
  | key issuer subject keyId | keys issuer subject =>
    dsimp only
    split
    · next h =>
      obtain ⟨q, rfl⟩ := Failure.refusal_of_isServerError h
      exact .inl ⟨q, rfl, rfl⟩
    · exact .inr ⟨_, rfl, Grant.announced_invalidGrant⟩
  | scopes issuer subject keyId =>
    dsimp only
    split
    · next h =>
      obtain ⟨q, rfl⟩ := Failure.refusal_of_isServerError h
      exact .inl ⟨q, rfl, rfl⟩
    · exact .inr ⟨_, rfl, Grant.announced_serverError⟩
  | isUsed jti | mark jti expiry =>
    cases f with
    | refusal q => exact .inl ⟨q, rfl, rfl⟩
    | fault e => exact .inr ⟨_, rfl, Grant.announced_serverError⟩

section Strategies

theorem Scope.kind_of_authorize {rule : Rule} {registered : Json} {requested : List Text}
    {issuer subject : Text} {f : Failure} (hrule : ∀ scope f, rule registered scope ≠ .error f)
    (h : authorize rule registered requested issuer subject = .error f) :
    ∃ q, f = .refusal q ∧ q.kind = .invalidScope := by
  unfold authorize at h
  rw [List.forM_eq_forM] at h
  induction requested with
  | nil => cases h
  | cons scope requested ih =>
    rw [List.forM_cons] at h
    rcases bind_eq_error.mp h with h | ⟨_, -, h⟩
    · rcases bind_eq_error.mp h with h | ⟨covered, -, h⟩
      · exact absurd h (hrule scope f)
      · cases covered with
        | true => cases h
        | false => exact ⟨_, (Except.error.inj h).symm, rfl⟩
    · exact ih h

theorem Audience.kind_of_isAllowed {u : Url} {allowed : List Text} {q : Refusal}
    (h : isAllowed u allowed = .error q) : q.kind = .invalidRequest := by
  induction allowed with
  | nil => cases h
  | cons base rest ih =>
    unfold isAllowed at h
    split at h
    · rw [← Except.error.inj h]
      rfl
    · split at h
      · cases h
      · exact ih h

theorem Audience.kind_of_checkOne {strategy : Strategy} {allowed : List Text}
    {requested : Text} {q : Refusal} (h : checkOne strategy allowed requested = .error q) :
    q.kind = .invalidRequest := by
  cases strategy with
  | exact =>
    change checkExact allowed requested = .error q at h
    unfold checkExact at h
    split at h
    · cases h
    · rw [← Except.error.inj h]
      rfl
  | nested =>
    change checkNested allowed requested = .error q at h
    unfold checkNested at h
    split at h
    · rw [← Except.error.inj h]
      rfl
    · split at h
      · next hallowed =>
        rw [← Except.error.inj h]
        exact kind_of_isAllowed hallowed
      · cases h
      · rw [← Except.error.inj h]
        rfl

theorem Audience.kind_of_check {strategy : Strategy} {allowed requested : List Text}
    {q : Refusal} (h : check strategy allowed requested = .error q) :
    q.kind = .invalidRequest := by
  induction requested with
  | nil => cases h
  | cons audience rest ih =>
    rcases bind_eq_error.mp h with h | ⟨_, -, h⟩
    · exact kind_of_checkOne h
    · exact ih h

end Strategies

namespace Signer

variable {issuer subject : Text} {s s' : Site} {e : Fault}

theorem live_of_checkContext_gives {u : Unit} (h : checkContext.Gives s u s') :
    s.Live ∧ s = s' := by
  rcases checkContext_cases s with ⟨hlive, hs⟩ | ⟨-, q, -, hs⟩
  · exact ⟨hlive, (Prod.mk.inj (hs.symm.trans h)).2⟩
  · cases (Prod.mk.inj (hs.symm.trans h)).1

theorem of_checked_fault {α : Type} {k : Unit → Act α}
    (h : (checkContext >>= k).Fails s (.fault e) s') : s.Live ∧ (k ()).Fails s (.fault e) s' := by
  rcases fails_bind.mp h with h | ⟨_, s₁, h₁, h⟩
  · exact absurd h refuses_checkContext.not_fault
  · obtain ⟨hlive, rfl⟩ := live_of_checkContext_gives h₁
    exact ⟨hlive, h⟩

theorem of_lookUp_fault {α β : Type} {x : Act α} {r : Except Failure α} {s₁ : Site}
    {entry : Text → LogEntry} {k : α → Act β} (hx : x.outcome s = (r, s₁))
    (h : (tryCatch x (lookupFailed issuer subject entry) >>= k).Fails s (.fault e) s') :
    ∃ a, r = .ok a ∧ (k a).Fails s₁ (.fault e) s' := by
  rcases fails_bind.mp h with h | ⟨a, s₂, h₂, h⟩
  · obtain ⟨q, hq⟩ := lookUp_refuses h
    cases hq
  · obtain ⟨ha, rfl⟩ := of_lookUp_gives hx h₂
    exact ⟨a, ha, h⟩

theorem of_concluded_fault {debug : Option Text} {v : Option (Except Fault (Jwk × Fields))}
    (h : concluded issuer subject debug v = .error (.fault e)) : v = some (.error e) := by
  cases v with
  | none => cases h
  | some r =>
    cases r with
    | ok found => cases h
    | error e' => rw [Failure.fault.inj (Except.error.inj h)]

end Signer

variable [Json.Nesting]

/-- The keys that are handed over for a token cause a fault: they are no list, or one of them that
is no use is tried. -/
def Site.Baffled (s : Site) (t : Compact) (allowed : List Text) (issuer subject : Text)
    (e : Fault) : Prop :=
  s.Live ∧ (s.offers t issuer subject = .ok none ∧ e = Signer.notKeys ∨
    (s.after (Signer.callFor t issuer subject)).Live ∧
      ∃ keys, s.offers t issuer subject = .ok (some keys) ∧
        Signer.verdict t allowed keys = some (.error e))

namespace Signer

variable {t : Compact} {allowed : List Text} {issuer subject : Text} {s s' : Site} {e : Fault}

theorem of_firstVerifying_fault {keys : List (Option Jwk)}
    (h : (firstVerifying t allowed issuer subject keys).Fails s (.fault e) s') :
    s.Live ∧ verdict t allowed keys = some (.error e) := by
  cases keys with
  | nil => exact absurd h (refuses_throw _).not_fault
  | cons given rest =>
    have hlive : s.Live := (of_checked_fault h).1
    obtain ⟨s₁, hs₁⟩ := outcome_firstVerifying t allowed issuer subject hlive (given :: rest)
    exact ⟨hlive, of_concluded_fault (Prod.mk.inj (hs₁.symm.trans h)).1⟩

theorem baffled_of_find_fails (h : (find t allowed issuer subject).Fails s (.fault e) s') :
    s.Baffled t allowed issuer subject e := by
  have hall := h
  unfold Site.Baffled Site.offers callFor
  unfold find at h
  dsimp only at h
  cases hid : (Assertion.keyId t).isEmpty with
  | false =>
    rw [hid] at h
    obtain ⟨hlive, h⟩ := of_checked_fault h
    obtain ⟨given, hgiven, h⟩ := of_lookUp_fault (outcome_publicKey _ _ _ _) h
    obtain ⟨hlive', -⟩ := of_checked_fault h
    have hoffers : s.offers t issuer subject = .ok (some [given]) := by
      unfold Site.offers
      rw [hid, hgiven]
      rfl
    have hafter : (s.after (callFor t issuer subject)).Live := by
      unfold callFor
      rw [hid]
      exact hlive'
    obtain ⟨debug, s₄, hs₄⟩ := outcome_find allowed hlive hoffers hafter
    have hverdict := of_concluded_fault (Prod.mk.inj (hs₄.symm.trans hall)).1
    rw [hgiven]
    exact ⟨hlive, .inr ⟨hlive', [given], rfl, hverdict⟩⟩
  | true =>
    rw [hid] at h
    obtain ⟨hlive, h⟩ := of_checked_fault h
    obtain ⟨given, hgiven, h⟩ := of_lookUp_fault (outcome_publicKeys _ _ _) h
    rw [if_pos rfl, if_pos rfl, hgiven]
    cases given with
    | none =>
      have hf := Except.error.inj (Prod.mk.inj h).1
      exact ⟨hlive, .inl ⟨rfl, (Failure.fault.inj hf).symm⟩⟩
    | some keys =>
      obtain ⟨hlive', hverdict⟩ := of_firstVerifying_fault h
      exact ⟨hlive, .inr ⟨hlive', keys, rfl, hverdict⟩⟩

theorem find_fails_of_baffled (h : s.Baffled t allowed issuer subject e) :
    ∃ s', (find t allowed issuer subject).Fails s (.fault e) s' := by
  obtain ⟨hlive, ⟨hoffers, rfl⟩ | ⟨hlive', keys, hoffers, hverdict⟩⟩ := h
  · unfold Site.offers at hoffers
    cases hid : (Assertion.keyId t).isEmpty with
    | false =>
      rw [hid] at hoffers
      cases hgiven : s.keyAt issuer subject (Assertion.keyId t) <;>
        rw [hgiven] at hoffers <;> cases hoffers
    | true =>
      rw [hid] at hoffers
      have hlookUp := gives_lookUp issuer subject (.listingFailed issuer subject)
        (outcome_publicKeys s issuer subject) hoffers
      refine ⟨s.after (.keys issuer subject), ?_⟩
      unfold find
      dsimp only
      rw [hid]
      refine fails_bind.mpr (.inr ⟨_, s, gives_checkContext hlive, ?_⟩)
      exact fails_bind.mpr (.inr ⟨_, _, hlookUp, rfl⟩)
  · obtain ⟨debug, s', hs'⟩ := outcome_find allowed hlive hoffers hlive'
    rw [hverdict] at hs'
    exact ⟨s', hs'⟩

end Signer

namespace Grant

variable {g : Grant} {r : AccessRequest} {s s' : Site} {e : Fault}

def Baffled (g : Grant) (r : AccessRequest) (s : Site) (e : Fault) : Prop :=
  ∃ d : Findings, d.Read g r ∧
    s.Baffled d.token g.settings.algorithms d.issuer d.subject e

def Outlives (g : Grant) (r : AccessRequest) (s : Site) : Prop :=
  (∃ c s', (g.clear r).Gives s c s') ∧ (∃ session, sessionOf r = .ok session) ∧
    g.expiryAt r s.now = none

/-- The request is clear, but its session does not take the expiry or the subject. -/
def Balks (g : Grant) (r : AccessRequest) (s : Site) (f : Failure) : Prop :=
  (∃ c s', (g.clear r).Gives s c s') ∧
    (∃ session, sessionOf r = .ok session ∧ session.failure? = some f) ∧
    (g.expiryAt r s.now).isSome = true

theorem find_fails_of_verifiedBy_fails {t : Compact} {issuer subject : Text}
    (h : (g.verifiedBy t issuer subject).Fails s (.fault e) s') :
    (Signer.find t g.settings.algorithms issuer subject).Fails s (.fault e) s' := by
  rcases fails_bind.mp h with h | ⟨found, s₁, -, h⟩
  · exact h
  rcases fails_bind.mp h with h | ⟨c, s₂, -, h⟩
  · exact absurd h (refuses_refusing _).not_fault
  rcases fails_bind.mp h with h | ⟨_, s₃, -, h⟩
  · cases h
  rcases fails_bind.mp h with h | ⟨_, s₄, -, h⟩
  · exact absurd h (Claims.refuses_validate _ _ _).not_fault
  · exact absurd h fails_pure

/-- A request fails before it is clear, or else with what its session or the calendar has against
it. -/
theorem failed_cases {f : Failure} (h : (g.handled r s).1.result = .error f) :
    (∃ s', (g.clear r).Fails s f s') ∨ sessionOf r = .error f ∨
      f = .fault Issuer.beyondCalendar ∧ g.Outlives r s ∨ g.Balks r s f := by
  rcases g.handled_cases r s with ⟨f', s', hc, e, -⟩ | ⟨c, s', log, hc, -, hend⟩
  · rw [e] at h
    obtain rfl := Except.error.inj h
    exact .inl ⟨s', hc⟩
  rcases hend with ⟨f', hsession, e⟩ | ⟨session, hsession, e⟩
  · rw [e] at h
    obtain rfl := Except.error.inj h
    exact .inr (.inl hsession)
  · rw [e, settle_eq_error, now_of_clear_gives hc] at h
    rcases h with ⟨hexpiry, hf⟩ | ⟨hexpiry, hf⟩
    · exact .inr (.inr (.inl ⟨hf, ⟨c, s', hc⟩, ⟨session, hsession⟩, hexpiry⟩))
    · exact .inr (.inr (.inr ⟨⟨c, s', hc⟩, ⟨session, hsession, hf⟩, hexpiry⟩))

theorem handled_of_settle_fails {c : Claims} {session : Session} {f : Failure}
    (hc : (g.clear r).Gives s c s') (hsession : sessionOf r = .ok session)
    (h : (g.settle r c session s.now).result = .error f) :
    (g.handled r s).1.result = .error f := by
  rcases g.handled_cases r s with ⟨f', s₁, hc', -⟩ | ⟨c', s₁, log, hc', -, hend⟩
  · exact absurd hc' hc.not_fails
  obtain ⟨hc', rfl⟩ := Prod.mk.inj (hc'.symm.trans hc)
  obtain rfl := Except.ok.inj hc'
  rcases hend with ⟨f', hsession', -⟩ | ⟨session', hsession', e⟩
  · rw [hsession] at hsession'
    cases hsession'
  · obtain rfl := Except.ok.inj (hsession'.symm.trans hsession)
    rw [e, now_of_clear_gives hc, h]

variable (hd : s.replays.Distinct)
  (hrules : g.RulesAllowed r s fun f => ∃ q, f = .refusal q ∧ q.kind ∈ announced)

include hd hrules

theorem authorize_not_fault {s₁ : Site} {c : Claims} {keyId : Json} (hs : Site.Untouched s s₁) :
    ¬ (g.authorize r c keyId).Fails s₁ (.fault e) s' := by
  intro h
  rcases fails_bind.mp h with h | ⟨scopes, s₂, h₂, h⟩
  · exact (refuses_scopesOf c keyId).not_fault h
  have hat := scopesAt_of_scopesOf_gives hd hs h₂
  rcases fails_bind.mp h with h | ⟨_, s₃, -, h⟩
  · obtain ⟨q, hq, -⟩ := hrules.scopes c keyId scopes _ hat (fails_orFail.mp h).1
    cases hq
  split at h
  · obtain ⟨q, hq, -⟩ := hrules.audience c _ (fails_orFail.mp h).1
    cases hq
  · exact absurd h fails_pure

theorem baffled_of_clear_fails (h : (g.clear r).Fails s (.fault e) s') : g.Baffled r s e := by
  rw [clear_eq] at h
  rcases fails_bind.mp h with h | ⟨found, s₁, -, h⟩
  · rcases fails_bind.mp h with h | ⟨_, s₁, h₁, h⟩
    · obtain ⟨q, hq, -⟩ := announced_of_screen (fails_orFail.mp h).1
      cases hq
    obtain ⟨hscreen, rfl⟩ := gives_orFail.mp h₁
    rcases fails_bind.mp h with h | ⟨raw, s₂, h₂, h⟩
    · obtain ⟨q, hq, -⟩ := announced_of_assertionOf (fails_orFail.mp h).1
      cases hq
    obtain ⟨hraw, rfl⟩ := gives_orFail.mp h₂
    rcases fails_bind.mp h with h | ⟨found, s₃, h₃, h⟩
    · rcases verifiedClaims_cases hscreen hraw s with ⟨d, hread, e'⟩ | ⟨q, hq⟩
      · unfold Fails at h
        rw [e'] at h
        have hfind := find_fails_of_verifiedBy_fails h
        exact ⟨d, hread, Signer.baffled_of_find_fails hfind⟩
      · cases (Prod.mk.inj (hq.symm.trans h)).1
    rcases fails_bind.mp h with h | ⟨_, s₄, -, h⟩
    · have hq := (quiet_verifiedClaims g raw).of_gives h₃
      exact absurd h (authorize_not_fault hd hrules hq)
    · exact absurd h fails_pure
  · rcases fails_bind.mp h with h | ⟨_, s₂, -, h⟩
    · split at h
      · exact absurd h (SingleUse.refuses_mark _ _).not_fault
      · exact absurd h fails_pure
    · exact absurd h fails_pure

theorem fault_iff : (g.handled r s).1.result = .error (.fault e) ↔
    g.Baffled r s e ∨ e = Issuer.beyondCalendar ∧ g.Outlives r s ∨ g.Balks r s (.fault e) := by
  constructor
  · intro h
    rcases failed_cases h with ⟨s', hc⟩ | hsession | ⟨he, houtlives⟩ | hbalks
    · exact .inl (baffled_of_clear_fails hd hrules hc)
    · obtain ⟨q, hq, -⟩ := announced_of_sessionOf hsession
      cases hq
    · exact .inr (.inl ⟨Failure.fault.inj he, houtlives⟩)
    · exact .inr (.inr hbalks)
  · rintro (⟨d, hread, hbaffled⟩ | ⟨rfl, ⟨c, s', hc⟩, ⟨session, hsession⟩, hexpiry⟩ |
      ⟨⟨c, s', hc⟩, ⟨session, hsession, hf⟩, hexpiry⟩)
    · obtain ⟨s', hfind⟩ := Signer.find_fails_of_baffled hbaffled
      rw [handled_of_clear_fails (clear_fails_of_find hread hfind)]
    · exact handled_of_settle_fails hc hsession (settle_eq_error.mpr (.inl ⟨hexpiry, rfl⟩))
    · exact handled_of_settle_fails hc hsession (settle_eq_error.mpr (.inr ⟨hexpiry, hf⟩))

end Grant

structure Site.PublicKeys (s : Site) : Prop where
  key : ∀ issuer subject keyId given, s.keyAt issuer subject keyId = .ok given →
    ∃ key, given = some key ∧ key.material.IsPublic
  keys : ∀ issuer subject given, s.keysAt issuer subject = .ok given →
    ∃ keys : List Jwk, given = some (keys.map some) ∧ ∀ key ∈ keys, key.material.IsPublic

namespace Signer

variable {t : Compact} {allowed : List Text} {issuer subject : Text} {s : Site} {e : Fault}

theorem verdict_of_public {keys : List Jwk} (h : ∀ key ∈ keys, key.material.IsPublic) :
    verdict t allowed (keys.map some) ≠ some (.error e) := by
  induction keys with
  | nil =>
    intro h
    cases h
  | cons key rest ih =>
    obtain ⟨hkey, hrest⟩ := List.forall_mem_cons.mp h
    rw [List.map_cons]
    unfold verdict
    cases hv : Assertion.verify t key.material allowed with
    | ok payload =>
      intro h
      cases h
    | error f =>
      obtain ⟨q, rfl⟩ := Assertion.verify_refuses hkey.isTame hv
      exact ih hrest

theorem not_baffled (h : s.PublicKeys) : ¬ s.Baffled t allowed issuer subject e := by
  have hoffers {given : Option (List (Option Jwk))} (ho : s.offers t issuer subject = .ok given) :
      ∃ keys : List Jwk, given = some (keys.map some) ∧ ∀ key ∈ keys, key.material.IsPublic := by
    unfold Site.offers at ho
    split at ho
    · exact h.keys _ _ _ ho
    · cases hgiven : s.keyAt issuer subject (Assertion.keyId t) with
      | error f =>
        rw [hgiven] at ho
        cases ho
      | ok given' =>
        rw [hgiven] at ho
        obtain ⟨key, rfl, hkey⟩ := h.key _ _ _ _ hgiven
        obtain rfl := Except.ok.inj ho
        exact ⟨[key], rfl, List.forall_mem_singleton.mpr hkey⟩
  rintro ⟨-, ⟨ho, -⟩ | ⟨-, keys, ho, hverdict⟩⟩
  · obtain ⟨keys, hkeys, -⟩ := hoffers ho
    cases hkeys
  · obtain ⟨keys', hkeys, hpublic⟩ := hoffers ho
    obtain rfl := Option.some.inj hkeys
    exact verdict_of_public hpublic hverdict

end Signer

theorem KeyStore.of_find_memory {registry : Registry} {cache : Cache} {issuer subject keyId : Json}
    {stored : Stored} (h : (memory registry).find cache issuer subject keyId = .ok stored) :
    ∃ r ∈ registry, stored = ⟨r.key, r.scopes⟩ := by
  obtain ⟨_, -, h⟩ := bind_eq_ok.mp h
  split at h
  · next r hr => exact ⟨r, List.mem_of_find?_eq_some hr, (Except.ok.inj h).symm⟩
  · cases h

theorem Site.texts_of_scopesAt {s : Site} {registry : Registry} {issuer subject : Text}
    {keyId given : Json} (hkeys : s.keys = .memory registry) (hd : s.disturbances.scopes = none)
    (htexts : ∀ r ∈ registry, ∃ texts : List Text, r.scopes = texts.map .str)
    (h : s.scopesAt issuer subject keyId = .ok given) :
    ∃ texts : List Text, given = .arr (texts.map .str) := by
  unfold scopesAt Disturbance.answer at h
  rw [hd, hkeys] at h
  change (((KeyStore.memory registry).find s.cache (.str issuer) (.str subject) keyId).mapError
    Failure.fault).map (fun stored => Json.arr stored.scopes) = .ok given at h
  cases hfind : (KeyStore.memory registry).find s.cache (.str issuer) (.str subject) keyId with
  | error f =>
    rw [hfind] at h
    cases h
  | ok stored =>
    rw [hfind] at h
    obtain ⟨r, hr, rfl⟩ := KeyStore.of_find_memory hfind
    obtain ⟨texts, ht⟩ := htexts r hr
    exact ⟨texts, by rw [← Except.ok.inj h, ht]⟩

namespace Grant

variable {g : Grant} {r : AccessRequest} {s : Site}

theorem rulesAllowed_of_strategies {scopes : Scope.Strategy} {audience : Audience.Strategy}
    (hscopes : g.scopes = scopes.rule) (haudience : g.audience = audience.rule)
    (htexts : ∀ issuer subject keyId given, s.scopesAt issuer subject keyId = .ok given →
      ∃ texts : List Text, given = .arr (texts.map .str)) :
    g.RulesAllowed r s fun f => ∃ q, f = .refusal q ∧ q.kind ∈ announced := by
  refine ⟨fun c keyId given f hgiven hf => ?_, fun c f hf => ?_⟩
  · obtain ⟨texts, rfl⟩ := htexts _ _ _ _ hgiven
    have hrule (scope : Text) (f : Failure) : g.scopes (.arr (texts.map .str)) scope ≠ .error f := by
      rw [hscopes]
      unfold Scope.Strategy.rule
      rw [Scope.Strategy.coversIn_texts]
      nofun
    obtain ⟨q, rfl, hq⟩ := Scope.kind_of_authorize hrule hf
    exact ⟨q, rfl, by rw [hq]; decide⟩
  · rw [haudience] at hf
    obtain ⟨q, hcheck, rfl⟩ := mapError_eq_error.mp hf
    exact ⟨q, rfl, by rw [Audience.kind_of_check hcheck]; decide⟩

theorem announced_of_clear_fails {s' : Site} {q : Refusal} (hd : s.replays.Distinct)
    (hrules : g.RulesAllowed r s fun f => ∃ q, f = .refusal q ∧ q.kind ∈ announced)
    (h : (g.clear r).Fails s (.refusal q) s') :
    q.kind ∈ announced ∨ ∃ call, s.breaks call = some (.refusal q) := by
  have hallows : Allows fun f => ∀ q, f = .refusal q → q.kind ∈ announced := by
    refine ⟨fun q hq q' he => ?_, fun e q he => ?_⟩
    · rwa [← Failure.refusal.inj he]
    · cases he
  have hkept : g.RulesAllowed r s fun f => ∀ q, f = .refusal q → q.kind ∈ announced := by
    refine ⟨fun c keyId scopes f hat hf q he => ?_, fun c f hf q he => ?_⟩
    · obtain ⟨q', rfl, hq'⟩ := hrules.scopes c keyId scopes f hat hf
      rwa [← Failure.refusal.inj he]
    · obtain ⟨q', rfl, hq'⟩ := hrules.audience c f hf
      rwa [← Failure.refusal.inj he]
  obtain ⟨made, -, hends⟩ := (accounts_clear hd hallows hkept).fails (.refl s) h
  obtain ⟨f, hf⟩ : ∃ f, f = Failure.refusal q := ⟨_, rfl⟩
  rw [← hf] at hends
  cases hends with
  | own _ hv => exact .inl (hv q hf)
  | @broken _ call f₀ _ hbreaks =>
    rcases call.raises_cases f₀ with ⟨q', rfl, hraises⟩ | ⟨q', hraises, hkind⟩
    · rw [← hraises, hf] at hbreaks
      exact .inr ⟨call, hbreaks⟩
    · rw [hraises] at hf
      rw [← Failure.refusal.inj hf]
      exact .inl hkind

/-- What a request fails with. A refusal is of an announced kind, or was raised by a storage or by
the session. A fault leaves exactly if a key that is no use is tried on the token, if the token to be
issued would expire beyond the calendar, or if the session raises it; where all keys are public, the
first of these does not happen. -/
theorem failures_of_handled (hd : s.replays.Distinct)
    (hrules : g.RulesAllowed r s fun f => ∃ q, f = .refusal q ∧ q.kind ∈ announced) :
    (∀ q, (g.handled r s).1.result = .error (.refusal q) →
      q.kind ∈ announced ∨ (∃ call, s.breaks call = some (.refusal q)) ∨
        g.Balks r s (.refusal q)) ∧
    (∀ e, (g.handled r s).1.result = .error (.fault e) ↔
      g.Baffled r s e ∨ e = Issuer.beyondCalendar ∧ g.Outlives r s ∨ g.Balks r s (.fault e)) ∧
    (s.PublicKeys → ∀ e, ¬ g.Baffled r s e) := by
  refine ⟨fun q hq => ?_, fun e => fault_iff hd hrules, ?_⟩
  · rcases failed_cases hq with ⟨s', hc⟩ | hsession | ⟨he, -⟩ | hbalks
    · exact (announced_of_clear_fails hd hrules hc).imp_right .inl
    · obtain ⟨q', he, hkind⟩ := announced_of_sessionOf hsession
      rw [Failure.refusal.inj he]
      exact .inl hkind
    · cases he
    · exact .inr (.inr hbalks)
  · rintro hpublic e ⟨d, -, hbaffled⟩
    exact Signer.not_baffled hpublic hbaffled

end Grant
end AssertionGrant

namespace AssertionGrant.Specimen
open Grant

def privateKey : Jwk where
  fields :=
    [("kty", .str "RSA"), ("kid", .str "k"), ("e", .str "Aw"),
     ("n", .str
       "m2Tss30uz_kqSnDigoukoIGQnz8hzefsKCjQWYwOOwZQkcmP1x34Tmr-swofKp2cmxUtS6pBHpyPYus1YhBFdw"),
     ("d", .str
       "Z5idzP4fNVDG3EtBrF0YawELFNTBM-_yxXCK5l1e0gMrucY8d4PixvqDPOQUbFj7dxhh3T7lsma8gL7HJTzBOw"),
     ("p", .str "w4zPr2F1d5d3eLXG2cq4WAm6A1-tdS9BJhcy3c5jfo0"),
     ("q", .str "y25QhcJirIx7wSHtJr1fy162lyAec2PBToqaLNvRpRM"),
     ("dp", .str "gl3fykD4-mT6UHkvO9x65VvRV5UeTh-AxA93PomXqbM"),
     ("dq", .str "h57gWSxByF2n1haeGdOVMj8kZMAUTO0ribG8HefhGLc"),
     ("qi", .str "NpSMVkwyWJ5IvqKdiQwHUQrUmE4piNR7zW75FhNVd6U")]
  material := .rsaPrivate
    ⟨0x9b64ecb37d2ecff92a4a70e2828ba4a081909f3f21cde7ec2828d0598c0e3b06 * 2 ^ 256 +
      0x5091c98fd71df84e6afeb30a1f2a9d9c9b152d4baa411e9c8f62eb3562104577, 3,
     0x67989dccfe1f3550c6dc4b41ac5d186b010b14d4c133eff2c5708ae65d5ed203 * 2 ^ 256 +
      0x2bb9c63c7783e2c6fa833ce4146c58fb771861dd3ee5b266bc80bec7253cc13b⟩

def privateSite : Site :=
  { now := ⟨0⟩, keys := .memory [⟨.str "i", .str "s", .str "k", privateKey, []⟩] }

theorem privateKey_baffles : Jwk.readMaterial privateKey.fields = .ok privateKey.material ∧
    (grant.handled request privateSite).1.result =
      .error (.fault ⟨.wrongObject, "the key cannot be used for this operation"⟩) ∧
    grant.Baffled request privateSite
      ⟨.wrongObject, "the key cannot be used for this operation"⟩ ∧ ¬ privateSite.PublicKeys := by
  have hdistinct : privateSite.replays.Distinct := List.nodup_nil
  have hscopes : grant.scopes = Scope.Strategy.hierarchic.rule := rfl
  have haudience : grant.audience = Audience.Strategy.nested.rule := rfl
  have htexts (issuer subject : Text) (keyId given : Json)
      (h : privateSite.scopesAt issuer subject keyId = .ok given) :
      ∃ texts : List Text, given = .arr (texts.map .str) :=
    Site.texts_of_scopesAt rfl rfl (List.forall_mem_singleton.mpr ⟨[], rfl⟩) h
  have hfault : (grant.handled request privateSite).1.result =
      .error (.fault ⟨.wrongObject, "the key cannot be used for this operation"⟩) := by
    decide +kernel
  obtain ⟨-, hiff, hpublic⟩ := failures_of_handled (r := request) hdistinct
    (rulesAllowed_of_strategies (g := grant) hscopes haudience htexts)
  rcases (hiff _).mp hfault with hbaffled | ⟨he, -⟩ | ⟨-, ⟨session, hsession, hf⟩, -⟩
  · exact ⟨by decide +kernel, hfault, hbaffled, fun h => hpublic h _ hbaffled⟩
  · cases he
  · obtain rfl := Except.ok.inj hsession
    cases hf

end AssertionGrant.Specimen
