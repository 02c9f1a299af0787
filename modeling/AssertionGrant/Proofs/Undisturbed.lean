import AssertionGrant.Proofs.Replies
import AssertionGrant.Proofs.Retention

/-! What storage calls answer at a calm site, where the request at hand is live, nothing disturbs a
call and the shared server is up. There every step up to the mark has an answer that the keys and
the live records alone decide, and leaves the site calm. -/

namespace AssertionGrant

namespace Site

def Live (s : Site) : Prop := ∀ c, s.context = some c → c.check s.uptime = .ok ()

structure Calm (s : Site) : Prop where
  undisturbed : s.disturbances = {}
  live : s.Live
  distinct : s.replays.Distinct
  up : s.cache.outage = none

structure Steady (s s' : Site) : Prop extends Untouched s s' where
  uptime : s'.uptime = s.uptime
  context : s'.context = s.context

variable {s s' s'' : Site}

theorem Steady.refl (s : Site) : Steady s s := ⟨.refl s, rfl, rfl⟩

theorem Steady.trans (h : Steady s s') (h' : Steady s' s'') : Steady s s'' :=
  ⟨h.toUntouched.trans h'.toUntouched, h'.uptime.trans h.uptime, h'.context.trans h.context⟩

theorem Steady.server (h : Steady s s') (hd : s.replays.Distinct) :
    s'.records.server = s.records.server := (h.records hd).server

theorem Steady.calm (h : Steady s s') (hc : s.Calm) : s'.Calm where
  undisturbed := h.disturbances.trans hc.undisturbed
  live c hs := by
    rw [h.context] at hs
    rw [h.uptime]
    exact hc.live c hs
  distinct := h.distinct hc.distinct
  up := (congrArg Prod.fst (h.server hc.distinct)).trans hc.up

theorem Calm.sound (h : s.Calm) : s.Sound := by
  refine ⟨h.distinct, ?_⟩
  unfold Faithful
  rw [h.undisturbed]
  nofun

theorem Calm.not_down (h : s.Calm) : ¬ s.records.Down := fun hd => hd.2 h.up

end Site

namespace Act

variable {α β : Type} {s : Site}

/-- A step answers with a result and leaves the site steady. -/
def Answers (x : Act α) (s : Site) (r : Except Failure α) : Prop :=
  ∃ s', x.outcome s = (r, s') ∧ Site.Steady s s'

theorem answers_pure (a : α) (s : Site) : (pure a : Act α).Answers s (.ok a) := ⟨s, rfl, .refl s⟩

theorem answers_throw (f : Failure) (s : Site) : (throw f : Act α).Answers s (.error f) :=
  ⟨s, rfl, .refl s⟩

theorem answers_orFail (r : Except Failure α) (s : Site) : (orFail r).Answers s r :=
  ⟨s, outcome_orFail s r, .refl s⟩

theorem answers_refusing (r : Except Refusal α) (s : Site) :
    (refusing r).Answers s (r.mapError .refusal) := ⟨s, outcome_refusing s r, .refl s⟩

theorem answers_note (entry : LogEntry) (s : Site) : (note entry).Answers s (.ok ()) :=
  ⟨_, rfl, .of_eq rfl rfl rfl rfl, rfl, rfl⟩

theorem gives_checkContext (h : s.Live) : checkContext.Gives s () s := by
  unfold Gives checkContext
  rw [outcome_bind, outcome_get]
  dsimp only
  cases hc : s.context with
  | none => rfl
  | some c =>
    dsimp only
    rw [outcome_refusing, h c hc]
    rfl

theorem answers_checkContext (h : s.Live) : checkContext.Answers s (.ok ()) :=
  ⟨s, gives_checkContext h, .refl s⟩

theorem steady_called (s : Site) (call : StorageCall) :
    Site.Steady s (called s call (none : Option (Disturbance α))) :=
  ⟨.of_eq rfl rfl rfl rfl, rfl, rfl⟩

theorem Answers.storage {call : StorageCall} {disturbance : Disturbances → Option (Disturbance α)}
    {answer : Act α} {r : Except Failure α} (hd : disturbance s.disturbances = none)
    (h : ∀ s', Site.Steady s s' → answer.Answers s' r) :
    (storage call disturbance answer).Answers s r := by
  have hc := steady_called (α := α) s call
  obtain ⟨s₁, h₁, hs₁⟩ := h _ hc
  refine ⟨s₁, ?_, hc.trans hs₁⟩
  rw [outcome_storage, hd]
  exact h₁

theorem answers_isUsed (hc : s.Calm) (jti : Text) :
    ∃ used, (used = true ↔ s.records.Holds s.now jti) ∧
      (isUsed jti).Answers s (.ok (.bool used)) := by
  rcases Records.isUsed_cases (a := s.records) hc.distinct s.now jti with
    ⟨hdown, -⟩ | ⟨-, used, b, e, hu, -⟩
  · exact absurd hdown hc.not_down
  have hn : s.disturbances.isUsed = none := by rw [hc.undisturbed]
  have hout : (isUsed jti).outcome s =
      (.ok (.bool used), { s with
        calls := s.calls ++ [.isUsed jti], replays := b.store, cache := b.cache }) := by
    have e : s.replays.isUsed s.cache s.now jti = .ok (used, b.store, b.cache) := e
    rw [outcome_isUsed, hn]
    simp only [Option.bind_none, called, lookUpAt, e]
  have hq := quiet_isUsed jti s
  rw [hout] at hq
  exact ⟨used, hu, _, hout, hq, rfl, rfl⟩

theorem mark_calm (hc : s.Calm) (jti : Text) (expiry : Instant) :
    s.records.Holds s.now jti ∧ (∃ s', (mark jti expiry).Fails s (.refuse .replayed) s') ∨
    ¬ s.records.Holds s.now jti ∧ ∃ s', (mark jti expiry).Gives s () s' := by
  have hn : s.disturbances.mark = none := by rw [hc.undisturbed]
  unfold Fails Gives
  rw [outcome_mark, hn]
  simp only [Option.bind_none, called, markAt]
  rcases Records.mark_cases (a := s.records) hc.distinct s.now jti expiry with
    ⟨hdown, -⟩ | ⟨-, hh, b, e, -⟩ | ⟨-, hh, b, e, -⟩
  · exact absurd hdown hc.not_down
  · have e : s.replays.mark s.cache s.now jti expiry = .ok (false, b.store, b.cache) := e
    rw [e]
    exact .inl ⟨hh, _, rfl⟩
  · have e : s.replays.mark s.cache s.now jti expiry = .ok (true, b.store, b.cache) := e
    rw [e]
    exact .inr ⟨hh, _, rfl⟩

end Act

namespace SingleUse
open Act

variable {s : Site}

theorem mark_calm (hc : s.Calm) (jti : Text) (expiry : Instant) :
    s.records.Holds s.now jti ∧ (∃ s', (mark jti expiry).Fails s (.refuse .replayed) s') ∨
    ¬ s.records.Holds s.now jti ∧ ∃ s', (mark jti expiry).Gives s () s' := by
  have hcheck := gives_checkContext hc.live
  rcases Act.mark_calm hc jti expiry with ⟨hh, s', h⟩ | ⟨hh, s', h⟩
  · refine .inl ⟨hh, { s' with log := s'.log ++ [.markRefused jti] }, ?_⟩
    exact fails_bind.mpr (.inr ⟨_, _, hcheck, fails_tryCatch.mpr ⟨_, _, h, rfl⟩⟩)
  · exact .inr ⟨hh, s', gives_bind.mpr ⟨_, _, hcheck, gives_tryCatch.mpr (.inl h)⟩⟩

end SingleUse
end AssertionGrant
