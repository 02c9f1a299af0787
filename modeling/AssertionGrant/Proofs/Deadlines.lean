import AssertionGrant.Proofs.Traces
import AssertionGrant.Proofs.Verdicts

/-! A request that is done makes no further call to a storage. Time passes and a request is cancelled
while a storage is called, so the calls of a run fix the clock and the context that it goes on with;
each of them is made while the request is live. -/

namespace AssertionGrant

theorem Binary64.le_trans {a b c : Binary64} (hab : a.le b = true) (hbc : b.le c = true) :
    a.le c = true := by
  unfold le at *
  generalize a.key = x at *
  generalize b.key = y at *
  generalize c.key = z at *
  cases x <;> cases y <;> cases z <;> simp_all
  omega

namespace Context

variable {c : Context} {u u' : Binary64}

def Done (c : Context) (u : Binary64) : Prop := c.cancelled = true ∨ c.isExpired u = true

theorem Done.later (h : c.Done u) (hu : u.le u' = true) : c.Done u' := by
  refine h.imp id fun hexpired => ?_
  unfold isExpired at hexpired ⊢
  split at hexpired
  · exact Binary64.le_trans hexpired hu
  · cases hexpired

theorem done_cancel (c : Context) (u : Binary64) : c.cancel.Done u := .inl rfl

theorem check_of_done (h : c.Done u) : ∃ q, q.kind = .serverError ∧ c.check u = .error q := by
  unfold check
  split
  · exact ⟨_, rfl, rfl⟩
  · next hlive =>
    rw [if_pos (h.resolve_left hlive)]
    exact ⟨_, rfl, rfl⟩

theorem check_of_not_done (h : ¬ c.Done u) : c.check u = .ok () := by
  have hcancelled : ¬ c.cancelled = true := fun hc => h (.inl hc)
  have hexpired : ¬ c.isExpired u = true := fun he => h (.inr he)
  unfold check
  rw [if_neg hcancelled, if_neg hexpired]

end Context

namespace Site

def Done (s : Site) : Prop := ∃ c, s.context = some c ∧ c.Done s.uptime

variable {s t t' : Site} {call : StorageCall} {made more before rest : List StorageCall}

theorem live_iff : s.Live ↔ ¬ s.Done := by
  constructor
  · rintro hlive ⟨c, hc, hdone⟩
    obtain ⟨q, -, hq⟩ := Context.check_of_done hdone
    cases hq.symm.trans (hlive c hc)
  · intro h c hc
    exact Context.check_of_not_done fun hdone => h ⟨c, hc, hdone⟩

structure InStep (s t : Site) : Prop where
  calls : t.calls = s.calls
  uptime : t.uptime = s.uptime
  context : t.context = s.context
  disturbances : t.disturbances = s.disturbances

theorem InStep.refl (s : Site) : s.InStep s := ⟨rfl, rfl, rfl, rfl⟩

theorem InStep.trans (h : s.InStep t) (h' : t.InStep t') : s.InStep t' :=
  ⟨h'.calls.trans h.calls, h'.uptime.trans h.uptime, h'.context.trans h.context,
    h'.disturbances.trans h.disturbances⟩

theorem InStep.done_iff (h : s.InStep t) : t.Done ↔ s.Done := by
  unfold Done
  rw [h.context, h.uptime]

theorem InStep.live (h : s.InStep t) (hlive : s.Live) : t.Live := by
  rw [live_iff, h.done_iff]
  exact live_iff.mp hlive

theorem InStep.called {α : Type} (h : s.InStep t) (d : Option (Disturbance α)) :
    (Act.called s call d).InStep (Act.called t call d) := by
  obtain ⟨hcalls, huptime, hcontext, hdisturbances⟩ := h
  rcases d with _ | ⟨_ | _, _ | _, _⟩
  all_goals
    refine ⟨?_, ?_, ?_, ?_⟩ <;>
      simp [Act.called, disturb, passTime, cancel, hcalls, huptime, hcontext, hdisturbances]

theorem InStep.after (h : s.InStep t) (call : StorageCall) : (s.after call).InStep (t.after call) := by
  unfold Site.after
  rw [h.disturbances]
  cases call <;> exact h.called _

/-- Calls made one after the other, each while the request at hand is live, and a site in step with
the one that they leave. -/
inductive Heeded : Site → List StorageCall → Site → Prop
  | nil {s t : Site} : s.InStep t → Heeded s [] t
  | cons {s t : Site} {call : StorageCall} {made : List StorageCall} :
    s.Live → Heeded (s.after call) made t → Heeded s (call :: made) t

theorem Heeded.of_inStep (h : t.Heeded made t') (hs : s.InStep t) : s.Heeded made t' := by
  induction h generalizing s with
  | nil h => exact .nil (hs.trans h)
  | cons hlive _ ih =>
    refine .cons ?_ (ih (hs.after _))
    rw [live_iff, ← hs.done_iff]
    exact live_iff.mp hlive

theorem Heeded.trans (h : s.Heeded made t) (h' : t.Heeded more t') : s.Heeded (made ++ more) t' := by
  induction h with
  | nil hs => exact h'.of_inStep hs
  | cons hlive _ ih => exact .cons hlive (ih h')

theorem calls_after (s : Site) (call : StorageCall) : (s.after call).calls = s.calls ++ [call] := by
  obtain ⟨_, _, e⟩ := s.after_eq call
  rw [e]

theorem Heeded.calls (h : s.Heeded made t) : t.calls = s.calls ++ made := by
  induction h with
  | nil hs => rw [hs.calls, List.append_nil]
  | cons _ _ ih => rw [ih, calls_after, List.append_assoc, List.singleton_append]

theorem Heeded.inStep (h : s.Heeded made t) : (made.foldl Site.after s).InStep t := by
  induction h with
  | nil hs => exact hs
  | cons _ _ ih => exact ih

theorem Heeded.live (h : s.Heeded (before ++ call :: rest) t) : (before.foldl Site.after s).Live := by
  induction before generalizing s with
  | nil =>
    cases h with
    | cons hlive _ => exact hlive
  | cons first before ih =>
    cases h with
    | cons _ h => exact ih h

end Site

open Act

namespace Act

variable {α β : Type} {x : Act α} {s : Site}

def HeedsAt (x : Act α) (s : Site) : Prop := ∃ made, s.Heeded made (x.outcome s).2

def Heeds (x : Act α) : Prop := ∀ s, x.HeedsAt s

theorem heeds_of_idle (h : ∀ s : Site, s.InStep (x.outcome s).2) : x.Heeds :=
  fun s => ⟨[], .nil (h s)⟩

theorem heeds_pure (a : α) : (pure a : Act α).Heeds := heeds_of_idle .refl

theorem heeds_throw (f : Failure) : (throw f : Act α).Heeds := heeds_of_idle .refl

theorem heeds_note (entry : LogEntry) : (note entry).Heeds :=
  heeds_of_idle fun _ => ⟨rfl, rfl, rfl, rfl⟩

theorem heeds_orFail (r : Except Failure α) : (orFail r).Heeds := by
  refine heeds_of_idle fun s => ?_
  rw [outcome_orFail]
  exact .refl s

theorem heeds_refusing (r : Except Refusal α) : (refusing r).Heeds := by
  refine heeds_of_idle fun s => ?_
  rw [outcome_refusing]
  exact .refl s

theorem HeedsAt.bind {k : α → Act β} (hx : x.HeedsAt s) (hk : ∀ a, (k a).Heeds) :
    (x >>= k).HeedsAt s := by
  obtain ⟨made, h⟩ := hx
  unfold HeedsAt
  rw [outcome_bind]
  rcases e : x.outcome s with ⟨f | a, t⟩ <;> rw [e] at h
  · exact ⟨made, h⟩
  · obtain ⟨more, h'⟩ := hk a t
    exact ⟨made ++ more, h.trans h'⟩

theorem HeedsAt.tryCatch {k : Failure → Act α} (hx : x.HeedsAt s) (hk : ∀ f, (k f).Heeds) :
    (tryCatch x k).HeedsAt s := by
  obtain ⟨made, h⟩ := hx
  unfold HeedsAt
  rw [outcome_tryCatch]
  rcases e : x.outcome s with ⟨f | a, t⟩ <;> rw [e] at h
  · obtain ⟨more, h'⟩ := hk f t
    exact ⟨made ++ more, h.trans h'⟩
  · exact ⟨made, h⟩

theorem Heeds.bind {k : α → Act β} (hx : x.Heeds) (hk : ∀ a, (k a).Heeds) : (x >>= k).Heeds :=
  fun s => (hx s).bind hk

theorem heeds_get_bind {k : Site → Act α} (hk : ∀ t, (k t).Heeds) : (get >>= k).Heeds := by
  intro s
  unfold HeedsAt
  rw [outcome_bind, outcome_get]
  exact hk s s

theorem heeds_guarded (h : ∀ s : Site, s.Live → x.HeedsAt s) :
    (checkContext >>= fun _ => x).Heeds := by
  intro s
  unfold HeedsAt
  rw [outcome_bind]
  rcases checkContext_cases s with ⟨hlive, e⟩ | ⟨-, q, -, e⟩
  · rw [e]
    exact h s hlive
  · rw [e]
    exact ⟨[], .nil (.refl s)⟩

theorem heeds_checkContext : checkContext.Heeds := by
  have h := heeds_guarded (x := pure ()) fun s _ => heeds_pure () s
  rwa [bind_pure_unit] at h

theorem heedsAt_of_call (hlive : s.Live) (call : StorageCall)
    (h : (s.after call).InStep (x.outcome s).2) : x.HeedsAt s := ⟨[call], .cons hlive (.nil h)⟩

theorem heedsAt_isUsed (hlive : s.Live) (jti : Text) : (isUsed jti).HeedsAt s := by
  refine heedsAt_of_call hlive (.isUsed jti) ?_
  obtain ⟨records, e⟩ := snd_outcome_isUsed s jti
  rw [e]
  exact ⟨rfl, rfl, rfl, rfl⟩

theorem heedsAt_mark (hlive : s.Live) (jti : Text) (expiry : Instant) :
    (mark jti expiry).HeedsAt s := by
  refine heedsAt_of_call hlive (.mark jti expiry) ?_
  obtain ⟨records, e⟩ := snd_outcome_mark s jti expiry
  rw [e]
  exact ⟨rfl, rfl, rfl, rfl⟩

end Act

namespace SingleUse

theorem heeds_afterNoAnswer (jti : Text) (f : Failure) : (afterNoAnswer jti f).Heeds := by
  unfold afterNoAnswer
  split
  · exact heeds_throw _
  · exact (heeds_note _).bind fun _ => heeds_throw _

theorem heeds_isUsed (jti : Text) : (isUsed jti).Heeds :=
  heeds_guarded fun _ hlive => (heedsAt_isUsed hlive jti).tryCatch (heeds_afterNoAnswer jti)

theorem heeds_afterFailure (jti : Text) (f : Failure) : (afterFailure jti f).Heeds := by
  unfold afterFailure
  split
  · split
    · exact (heeds_note _).bind fun _ => heeds_throw _
    · exact heeds_throw _
  · exact (heeds_note _).bind fun _ => heeds_throw _

theorem heeds_mark (jti : Text) (expiry : Instant) : (mark jti expiry).Heeds :=
  heeds_guarded fun _ hlive => (heedsAt_mark hlive jti expiry).tryCatch (heeds_afterFailure jti)

theorem untouched_or_marked (jti : Text) (expiry : Instant) (s : Site) :
    Site.Untouched s ((mark jti expiry).outcome s).2 ∨
      Site.MarkedBy jti expiry s ((mark jti expiry).outcome s).2 ∧
        s.Heeded [.mark jti expiry] ((mark jti expiry).outcome s).2 := by
  rcases (mark jti expiry).gives_or_fails s with ⟨u, s', h⟩ | ⟨f, s', h⟩
  · rw [h]
    by_cases hf : s.Faithful
    · refine .inr ⟨markedBy_of_mark_gives hf h, ?_⟩
      obtain ⟨made, hmade⟩ := heeds_mark jti expiry s
      rw [h] at hmade
      have hcalls := hmade.calls.symm.trans ((makes_mark jti expiry).gives h)
      rwa [List.append_cancel_left hcalls] at hmade
    · exact .inl (untouched_of_pretended hf h)
  · rw [h]
    exact .inl (untouched_of_mark_fails h)

end SingleUse

theorem Claims.heeds_validate (settings : Settings) (c : Claims) (now : Instant) :
    (validate settings c now).Heeds := by
  refine (heeds_refusing _).bind fun expiry => ?_
  split
  · refine heeds_checkContext.bind fun _ => (SingleUse.heeds_isUsed _).bind fun used => ?_
    split
    · exact (heeds_note _).bind fun _ => (heeds_throw _).bind fun _ => heeds_pure _
    · exact heeds_pure _
  · exact heeds_pure _

namespace Act

variable [Json.Nesting] {s : Site}

theorem heedsAt_publicKey (hlive : s.Live) (issuer subject keyId : Text) :
    (publicKey issuer subject keyId).HeedsAt s := by
  refine heedsAt_of_call hlive (.key issuer subject keyId) ?_
  rw [outcome_publicKey]
  exact .refl _

theorem heedsAt_publicKeys (hlive : s.Live) (issuer subject : Text) :
    (publicKeys issuer subject).HeedsAt s := by
  refine heedsAt_of_call hlive (.keys issuer subject) ?_
  rw [outcome_publicKeys]
  exact .refl _

theorem heedsAt_publicKeyScopes (hlive : s.Live) (issuer subject : Text) (keyId : Json) :
    (publicKeyScopes issuer subject keyId).HeedsAt s := by
  refine heedsAt_of_call hlive (.scopes issuer subject keyId) ?_
  rw [outcome_publicKeyScopes]
  exact .refl _

end Act

namespace Signer

variable {t : Compact} {allowed : List Text} {issuer subject : Text}

theorem heeds_lookupFailed {α : Type} (entry : Text → LogEntry) (f : Failure) :
    (lookupFailed issuer subject entry f : Act α).Heeds := by
  unfold lookupFailed
  split
  · exact heeds_throw _
  · exact (heeds_note _).bind fun _ => heeds_throw _

variable [Json.Nesting]

theorem heeds_findNamed (keyId : Text) : (findNamed t allowed issuer subject keyId).Heeds := by
  refine heeds_guarded fun s hlive => ?_
  refine HeedsAt.bind ((heedsAt_publicKey hlive _ _ _).tryCatch (heeds_lookupFailed _)) ?_
  intro given
  refine heeds_checkContext.bind fun _ => ?_
  cases given with
  | none => exact heeds_throw _
  | some key =>
    dsimp only
    split
    · exact heeds_pure _
    · exact (heeds_note _).bind fun _ => heeds_throw _
    · exact heeds_throw _

theorem heeds_firstVerifying (keys : List (Option Jwk)) :
    (firstVerifying t allowed issuer subject keys).Heeds := by
  induction keys with
  | nil => exact heeds_throw _
  | cons given rest ih =>
    refine heeds_checkContext.bind fun _ => ?_
    cases given with
    | none => exact heeds_throw _
    | some key =>
      dsimp only
      split
      · exact (heeds_note _).bind fun _ => heeds_pure _
      · exact ih
      · exact heeds_throw _

theorem heeds_find : (find t allowed issuer subject).Heeds := by
  unfold find
  dsimp only
  split
  · exact heeds_findNamed _
  · refine heeds_guarded fun s hlive => ?_
    refine HeedsAt.bind ((heedsAt_publicKeys hlive _ _).tryCatch (heeds_lookupFailed _)) ?_
    intro given
    cases given with
    | none => exact heeds_throw _
    | some keys => exact heeds_firstVerifying keys

end Signer

namespace Grant

theorem screen_granting (g : Grant) (r : AccessRequest) (c : Claims) :
    g.screen (granting r c) = g.screen r := by
  unfold granting
  rw [AccessRequest.foldl_grantScope, AccessRequest.foldl_grantAudience]
  rfl

variable [Json.Nesting] {g : Grant} {r : AccessRequest} {s : Site}

theorem heeds_verifiedClaims (g : Grant) (raw : String) : (g.verifiedClaims raw).Heeds := by
  refine (heeds_refusing _).bind fun _ => (heeds_refusing _).bind fun _ => ?_
  refine Signer.heeds_find.bind fun _ => (heeds_refusing _).bind fun c => ?_
  refine heeds_get_bind fun s => ?_
  exact (Claims.heeds_validate _ c s.now).bind fun _ => heeds_pure _

theorem heeds_scopesOf (c : Claims) (keyId : Json) : (scopesOf c keyId).Heeds := by
  refine heeds_guarded fun s hlive => (heedsAt_publicKeyScopes hlive _ _ _).tryCatch fun f => ?_
  split <;> exact heeds_throw _

theorem heeds_examine (g : Grant) (r : AccessRequest) : (g.examine r).Heeds := by
  refine (heeds_orFail _).bind fun _ => (heeds_orFail _).bind fun raw => ?_
  refine (heeds_verifiedClaims g raw).bind fun found => ?_
  refine Heeds.bind ?_ fun _ => heeds_pure _
  refine (heeds_scopesOf _ _).bind fun _ => (heeds_orFail _).bind fun _ => ?_
  split
  · exact heeds_orFail _
  · exact heeds_pure _

/-- The calls of a request, each made while it is live; and unless the last of them marks an
identifier, the site is left untouched. -/
theorem heeded_of_clear (g : Grant) (r : AccessRequest) (s : Site) :
    ∃ made, s.Heeded made ((g.clear r).outcome s).2 ∧
      (Site.Untouched s ((g.clear r).outcome s).2 ∨
        ∃ before jti expiry, made = before ++ [.mark jti expiry] ∧
          Site.MarkedBy jti expiry s ((g.clear r).outcome s).2) := by
  obtain ⟨before, hbefore⟩ := heeds_examine g r s
  have hquiet := quiet_examine g r s
  rw [clear_eq, outcome_bind]
  rcases e : (g.examine r).outcome s with ⟨f | ⟨c, expiry⟩, s₁⟩ <;> rw [e] at hbefore hquiet
  · exact ⟨before, hbefore, .inl hquiet⟩
  dsimp only
  split
  · have hsnd : ((SingleUse.mark c.jwtId expiry >>= fun _ => pure c).outcome s₁).2 =
        ((SingleUse.mark c.jwtId expiry).outcome s₁).2 := by
      rw [outcome_bind]
      rcases (SingleUse.mark c.jwtId expiry).outcome s₁ with ⟨_ | _, _⟩ <;> rfl
    rw [hsnd]
    rcases SingleUse.untouched_or_marked c.jwtId expiry s₁ with hu | ⟨hm, hmade⟩
    · obtain ⟨made, hmade⟩ := SingleUse.heeds_mark c.jwtId expiry s₁
      exact ⟨before ++ made, hbefore.trans hmade, .inl (hquiet.trans hu)⟩
    · exact ⟨before ++ [.mark c.jwtId expiry], hbefore.trans hmade,
        .inr ⟨before, c.jwtId, expiry, rfl, hquiet.trans_markedBy hm⟩⟩
  · exact ⟨before, hbefore, .inl hquiet⟩

theorem screen_of_accepted (h : (g.handled r s).1.result = .ok ()) :
    g.screen (g.handled r s).1.request = .ok () := by
  rcases handled_cases g r s with ⟨f, s', -, e, -⟩ | ⟨c, s', log, hc, -, ⟨f, -, e⟩ | ⟨session, -, e⟩⟩
  · rw [e] at h
    cases h
  · rw [e] at h
    cases h
  · rw [e] at h ⊢
    obtain ⟨_, s₁, h₁, -⟩ := gives_bind.mp hc
    obtain ⟨expiry, -, er⟩ := of_settle_ok h
    rw [er]
    exact (g.screen_granting r c).trans (gives_orFail.mp h₁).1

theorem respond_of_done {t : Site} (hscreen : g.screen r = .ok ()) (hdone : t.Done) :
    ∃ q, q.kind = .serverError ∧ (g.respond r).Fails t (.refusal q) t := by
  rcases checkContext_cases t with ⟨hlive, -⟩ | ⟨-, q, hq, e⟩
  · exact absurd hdone (Site.live_iff.mp hlive)
  · refine ⟨q, hq, fails_bind.mpr (.inr ⟨(), t, gives_orFail.mpr ⟨hscreen, rfl⟩, ?_⟩)⟩
    exact fails_bind.mpr (.inl e)

/-- A context that is done stays done, whatever time passes and however often it is cancelled again;
and once the context of a request is done no further call is made, no identifier is marked, and no
token is issued for the request if it was accepted. -/
theorem done_bars_storage (g : Grant) (r : AccessRequest) (s : Site) (hd : s.replays.Distinct) :
    (∀ (c : Context) (u u' : Binary64), c.Done u → u.le u' = true →
      (∃ q, q.kind = .serverError ∧ c.check u' = .error q) ∧
      ∃ q, q.kind = .serverError ∧ c.cancel.check u' = .error q) ∧
    ∃ made, (g.handled r s).2.calls = s.calls ++ made ∧
      ((g.handled r s).2.Done ↔ (made.foldl Site.after s).Done) ∧
      (∀ before rest, made = before ++ rest → (before.foldl Site.after s).Done → rest = []) ∧
      (∀ t jti, s.now.micros ≤ t.micros → (g.handled r s).2.records.Holds t jti →
        s.records.Holds t jti ∨ ∃ before expiry, made = before ++ [.mark jti expiry] ∧
          ¬ (before.foldl Site.after s).Done) ∧
      ((g.handled r s).1.result = .ok () → ∀ t : Site, t.Done →
        ∃ q, q.kind = .serverError ∧
          (g.respond (g.handled r s).1.request).Fails t (.refusal q) t) := by
  refine ⟨fun c u u' hdone hu => ?_, ?_⟩
  · exact ⟨Context.check_of_done (hdone.later hu), Context.check_of_done (c.done_cancel u')⟩
  obtain ⟨made, hmade, hmarked⟩ := heeded_of_clear g r s
  obtain ⟨log, e⟩ := snd_handled g r s
  have hstep : ((g.clear r).outcome s).2.InStep (g.handled r s).2 := by
    rw [e]
    exact ⟨rfl, rfl, rfl, rfl⟩
  have hrecords : (g.handled r s).2.records = ((g.clear r).outcome s).2.records := by rw [e]; rfl
  refine ⟨made, ?_, ?_, ?_, ?_, ?_⟩
  · rw [hstep.calls, hmade.calls]
  · rw [hstep.done_iff, hmade.inStep.done_iff]
  · rintro before rest rfl hdone
    cases rest with
    | nil => rfl
    | cons call rest => exact absurd hdone (Site.live_iff.mp hmade.live)
  · intro t jti ht hholds
    rw [hrecords] at hholds
    rcases hmarked with hu | ⟨before, jti', expiry, rfl, hm⟩
    · exact .inl (((hu.records hd).holds t jti ht).mp hholds)
    · refine (((hm.records hd).holds t jti ht).mp hholds).imp id ?_
      rintro ⟨rfl, -⟩
      exact ⟨before, expiry, rfl, Site.live_iff.mp hmade.live⟩
  · exact fun haccepted t hdone => respond_of_done (screen_of_accepted haccepted) hdone

end Grant

namespace Specimen
open Grant

def timedSite (d : Disturbances) : Site :=
  { site with context := some ⟨some (.ofInt 5), false⟩, disturbances := d }

def slowLookUp : Site := timedSite { isUsed := some { delay := some (.int 5) } }

def slowMark : Site := timedSite { mark := some { delay := some (.int 5) } }

theorem request_overdue : slowLookUp.replays.Distinct ∧ slowMark.replays.Distinct ∧
    ((grant.handled request slowLookUp).2.calls.length = 2 ∧
      ¬ (grant.handled request slowLookUp).2.records.Holds ⟨0⟩ "j") ∧
    (grant.handled request slowMark).1.result = .ok () ∧ (grant.handled request slowMark).2.Done ∧
      ∃ q, q.kind = .serverError ∧ (grant.respond (grant.handled request slowMark).1.request).Fails
        (grant.handled request slowMark).2 (.refusal q) (grant.handled request slowMark).2 := by
  have hlookUp : slowLookUp.replays.Distinct := List.nodup_nil
  have hmark : slowMark.replays.Distinct := List.nodup_nil
  refine ⟨hlookUp, hmark, ?_, ?_⟩
  · obtain ⟨-, made, hcalls, -, -, hmarks, -⟩ := grant.done_bars_storage request slowLookUp hlookUp
    have hmade : (grant.handled request slowLookUp).2.calls.map (fun
        | .mark _ _ => true
        | _ => false) = [false, false] := by decide +kernel
    refine ⟨by rw [← List.length_map, hmade]; rfl, mt (hmarks ⟨0⟩ "j" (Int.le_refl 0)) ?_⟩
    rintro (⟨_, h, -⟩ | ⟨before, expiry, rfl, -⟩)
    · cases h
    · have hlast := congrArg List.getLast? hmade
      rw [hcalls, ← List.append_assoc, List.map_append] at hlast
      simp at hlast
  · obtain ⟨-, made, -, -, -, -, hrespond⟩ := grant.done_bars_storage request slowMark hmark
    have hend : (grant.handled request slowMark).1.result = .ok () ∧
        ((grant.handled request slowMark).2.context.map (·.isExpired
          (grant.handled request slowMark).2.uptime)) = some true := by decide +kernel
    obtain ⟨haccepted, hexpired⟩ := hend
    obtain ⟨c, hc, he⟩ := Option.map_eq_some_iff.mp hexpired
    have hdone : (grant.handled request slowMark).2.Done := ⟨c, hc, .inr he⟩
    exact ⟨haccepted, hdone, hrespond haccepted _ hdone⟩

end Specimen
end AssertionGrant
