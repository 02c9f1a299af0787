import AssertionGrant.Proofs.Lifetimes
import AssertionGrant.Proofs.Storages

/-! The records in memory answer like a plain map from identifiers to expiries. Ended ones are dropped
when they are looked at, or all at once when the ledger is full; no answer tells when that happens. -/

namespace AssertionGrant
open Act

theorem Ledger.find?_cons (jti j : Text) (expiry : Instant) (ledger : Ledger) :
    Ledger.find? ((jti, expiry) :: ledger) j =
      if jti = j then some expiry else ledger.find? j := by
  unfold find?
  rw [List.find?_cons]
  by_cases h : jti = j <;> simp [h]

namespace Records

variable {a b : Records} {now expiry : Instant} {jti : Text} {answer : Bool}

theorem reply_isUsed (h : a.store.isUsed a.cache now jti = .ok (answer, b.store, b.cache)) :
    a.reply now (.isUsed jti) = (.ok answer, b) := by
  unfold reply
  dsimp only
  rw [h]
  rfl

theorem reply_mark (h : a.store.mark a.cache now jti expiry = .ok (answer, b.store, b.cache)) :
    a.reply now (.mark jti expiry) = (.ok answer, b) := by
  unfold reply
  dsimp only
  rw [h]
  rfl

theorem reply_mark_fails {f : Fault} (h : a.store.mark a.cache now jti expiry = .error f) :
    a.reply now (.mark jti expiry) = (.error f, a) := by
  unfold reply
  dsimp only
  rw [h]
  rfl

end Records

namespace ReplayCall

def act : ReplayCall → Act Json
  | .isUsed jti => Act.isUsed jti
  | .mark jti expiry => do
    Act.mark jti expiry
    pure .null

def worded : ReplayCall → Except Fault Bool → Except Failure Json
  | .isUsed _, answer => (answer.mapError .fault).map .bool
  | .mark _ _, answer => (answer.mapError .fault >>= unlessMarked).map fun _ => .null

theorem outcome_act {s : Site} (h : s.disturbances = {}) (call : ReplayCall) :
    ∃ calls, call.act.outcome s = (call.worded (s.records.reply s.now call).1,
      { recording s (s.records.reply s.now call).2 with calls }) := by
  cases call with
  | isUsed jti =>
    have hn : s.disturbances.isUsed = none := by rw [h]
    refine ⟨s.calls ++ [.isUsed jti], ?_⟩
    unfold act
    dsimp only
    rw [outcome_isUsed, hn]
    dsimp only [Option.bind_none]
    rw [lookUpAt_eq]
    rfl
  | mark jti expiry =>
    have hn : s.disturbances.mark = none := by rw [h]
    refine ⟨s.calls ++ [.mark jti expiry], ?_⟩
    unfold act
    dsimp only
    rw [outcome_bind, outcome_mark, hn]
    dsimp only [Option.bind_none]
    rw [markAt_eq]
    have hsame : (called s (.mark jti expiry) (none : Option (Disturbance Unit))).records.reply
        (called s (.mark jti expiry) (none : Option (Disturbance Unit))).now (.mark jti expiry) =
          s.records.reply s.now (.mark jti expiry) := rfl
    rw [hsame]
    unfold worded
    dsimp only
    cases (s.records.reply s.now (.mark jti expiry)).1.mapError Failure.fault >>= unlessMarked <;> rfl

end ReplayCall

/-- A site, and the marks that were made at it, the last one first. -/
structure Tally where
  site : Site
  marks : Ledger := []

namespace Tally

def opened (threshold : Int) (start : Instant) : Tally :=
  { site := { now := start, replays := .memory threshold [] } }

def waited (tally : Tally) (wait : Nat) : Site :=
  { tally.site with now := ⟨tally.site.now.micros + wait⟩ }

def answer (tally : Tally) (c : Nat × ReplayCall) : Except Failure Json :=
  (c.2.act.outcome (tally.waited c.1)).1

def marksAfter (tally : Tally) : ReplayCall → Except Failure Json → Ledger
  | .mark jti expiry, .ok _ => (jti, expiry) :: tally.marks
  | _, _ => tally.marks

def turn (tally : Tally) (c : Nat × ReplayCall) : Tally where
  site := (c.2.act.outcome (tally.waited c.1)).2
  marks := tally.marksAfter c.2 (tally.answer c)

def answers : Tally → List (Nat × ReplayCall) → List (Except Failure Json)
  | _, [] => []
  | tally, c :: rest => tally.answer c :: (tally.turn c).answers rest

def remembers (tally : Tally) (wait : Nat) (jti : Text) : Bool :=
  (tally.marks.find? jti).any fun expiry => decide ((tally.waited wait).now.micros < expiry.micros)

def plainAnswer (tally : Tally) : Nat × ReplayCall → Except Failure Json
  | (wait, .isUsed jti) => .ok (.bool (tally.remembers wait jti))
  | (wait, .mark jti _) =>
    if tally.remembers wait jti then .error (.refuse .replayed) else .ok .null

structure Plain (tally : Tally) : Prop where
  undisturbed : tally.site.disturbances = {}
  memory : tally.site.replays.threshold? ≠ none
  distinct : tally.site.replays.Distinct
  holds : ∀ t jti, tally.site.now.micros ≤ t.micros → (tally.site.records.Holds t jti ↔
    ∃ expiry, tally.marks.find? jti = some expiry ∧ t.micros < expiry.micros)

variable {tally : Tally}

theorem plain_opened (threshold : Int) (start : Instant) : (opened threshold start).Plain where
  undisturbed := rfl
  memory := Option.some_ne_none _
  distinct := List.nodup_nil
  holds t jti _ := by
    constructor
    · rintro ⟨_, h, -⟩
      cases h
    · rintro ⟨_, h, -⟩
      cases h

theorem Plain.holds_later (h : tally.Plain) (wait : Nat) (t : Instant) (jti : Text)
    (ht : (tally.waited wait).now.micros ≤ t.micros) : tally.site.records.Holds t jti ↔
      ∃ expiry, tally.marks.find? jti = some expiry ∧ t.micros < expiry.micros := by
  refine h.holds t jti (Int.le_trans ?_ ht)
  simp only [waited]
  omega

theorem Plain.remembers_iff (h : tally.Plain) (wait : Nat) (jti : Text) :
    tally.remembers wait jti = true ↔
      tally.site.records.Holds (tally.waited wait).now jti := by
  rw [h.holds_later wait _ jti (Int.le_refl _)]
  unfold remembers
  simp only [Option.any_eq_true, decide_eq_true_eq]

theorem Plain.remembers_eq_false (h : tally.Plain) (wait : Nat) (jti : Text) :
    tally.remembers wait jti = false ↔
      ¬ tally.site.records.Holds (tally.waited wait).now jti := by
  rw [← h.remembers_iff, Bool.not_eq_true]

theorem Plain.endOf_eq (h : tally.Plain) (now expiry : Instant) :
    tally.site.replays.endOf now expiry = expiry := by
  have hmemory := h.memory
  cases hstore : tally.site.replays with
  | memory threshold ledger => rfl
  | shared =>
    rw [hstore] at hmemory
    exact absurd rfl hmemory

theorem turn_of_reply {wait : Nat} {call : ReplayCall} {answer : Except Fault Bool} {b : Records}
    (h : tally.site.disturbances = {})
    (hreply : tally.site.records.reply (tally.waited wait).now call = (answer, b)) :
    tally.answer (wait, call) = call.worded answer ∧ ∃ calls,
      (tally.turn (wait, call)).site = { Act.recording (tally.waited wait) b with calls } := by
  have hundisturbed : (tally.waited wait).disturbances = {} := h
  obtain ⟨calls, e⟩ := ReplayCall.outcome_act hundisturbed call
  have hrecords : (tally.waited wait).records = tally.site.records := rfl
  rw [hrecords, hreply] at e
  exact ⟨congrArg Prod.fst e, calls, congrArg Prod.snd e⟩

theorem Plain.become {wait : Nat} {call : ReplayCall} {answer : Except Fault Bool} {b : Records}
    {live : Instant → Text → Prop} (h : tally.Plain)
    (hreply : tally.site.records.reply (tally.waited wait).now call = (answer, b))
    (hb : Records.Become (tally.waited wait).now tally.site.records live b)
    (hlive : ∀ t jti, (tally.waited wait).now.micros ≤ t.micros → (live t jti ↔
      ∃ expiry, (tally.marksAfter call (call.worded answer)).find? jti = some expiry ∧
        t.micros < expiry.micros)) :
    tally.answer (wait, call) = call.worded answer ∧ (tally.turn (wait, call)).Plain ∧
      (tally.turn (wait, call)).site.now = (tally.waited wait).now ∧
      (tally.turn (wait, call)).site.records = b := by
  obtain ⟨hanswer, calls, hsite⟩ := turn_of_reply h.undisturbed hreply
  refine ⟨hanswer, ⟨?_, ?_, ?_, fun t jti ht => ?_⟩, ?_, ?_⟩
  · rw [hsite]
    exact h.undisturbed
  · have hsame : b.store.threshold? = tally.site.replays.threshold? := hb.threshold
    rw [hsite]
    change b.store.threshold? ≠ none
    rw [hsame]
    exact h.memory
  · rw [hsite]
    exact hb.distinct
  · have hmarks : (tally.turn (wait, call)).marks =
        tally.marksAfter call (call.worded answer) := by
      rw [← hanswer]
      rfl
    rw [hsite] at ht ⊢
    rw [hmarks]
    exact (hb.holds t jti ht).trans (hlive t jti ht)
  · rw [hsite]
    rfl
  · rw [hsite]
    rfl

structure Turned (tally : Tally) (wait : Nat) (call : ReplayCall) : Prop where
  answer : tally.answer (wait, call) = tally.plainAnswer (wait, call)
  plain : (tally.turn (wait, call)).Plain
  now : (tally.turn (wait, call)).site.now = (tally.waited wait).now
  unseen : tally.plainAnswer (wait, call) = .error (.refuse .replayed) →
    Records.Indistinguishable (tally.waited wait).now tally.site.records
      (tally.turn (wait, call)).site.records

theorem Plain.turned_isUsed (h : tally.Plain) (wait : Nat) (jti : Text) :
    tally.Turned wait (.isUsed jti) := by
  rcases Records.isUsed_cases (a := tally.site.records) h.distinct (tally.waited wait).now jti with
    ⟨hdown, -⟩ | ⟨-, used, b, e, hused, hb⟩
  · exact absurd hdown.1 h.memory
  obtain ⟨hanswer, hplain, hnow, -⟩ := h.become (Records.reply_isUsed e) hb (h.holds_later wait)
  have hsame : tally.remembers wait jti = used :=
    Bool.eq_iff_iff.mpr ((h.remembers_iff wait jti).trans hused.symm)
  have hanswers : tally.plainAnswer (wait, .isUsed jti) =
      .ok (.bool (tally.remembers wait jti)) := rfl
  rw [hsame] at hanswers
  exact ⟨hanswer.trans hanswers.symm, hplain, hnow, nofun⟩

theorem Plain.holds_marked {wait : Nat} {jti : Text} (h : tally.Plain)
    (hfresh : ¬ tally.site.records.Holds (tally.waited wait).now jti) (expiry t : Instant) (j : Text)
    (ht : (tally.waited wait).now.micros ≤ t.micros) :
    tally.site.records.Holds t j ∨ j = jti ∧ t.micros < expiry.micros ↔
      ∃ last, Ledger.find? ((jti, expiry) :: tally.marks) j = some last ∧
        t.micros < last.micros := by
  rw [Ledger.find?_cons]
  by_cases hj : j = jti
  · subst hj
    have hgone : ¬ tally.site.records.Holds t j := fun hl => hfresh (Records.holds_earlier hl ht)
    simp [hgone]
  · have hj' : ¬ jti = j := fun e => hj e.symm
    rw [if_neg hj', h.holds_later wait t j ht]
    simp [hj]

theorem Plain.turned_mark (h : tally.Plain) (wait : Nat) (jti : Text) (expiry : Instant) :
    tally.Turned wait (.mark jti expiry) := by
  have hanswers : tally.plainAnswer (wait, .mark jti expiry) =
      if tally.remembers wait jti then .error (.refuse .replayed) else .ok .null := rfl
  rcases Records.mark_cases (a := tally.site.records) h.distinct (tally.waited wait).now jti
    expiry with ⟨hdown, -⟩ | ⟨-, hholds, b, e, hb⟩ | ⟨-, hfresh, b, e, hb⟩
  · exact absurd hdown.1 h.memory
  · obtain ⟨hanswer, hplain, hnow, hrecords⟩ :=
      h.become (Records.reply_mark e) hb (h.holds_later wait)
    rw [(h.remembers_iff wait jti).mpr hholds] at hanswers
    refine ⟨hanswer.trans hanswers.symm, hplain, hnow, fun _ => ?_⟩
    rw [hrecords]
    exact hb.indistinguishable h.distinct
  · have hend : tally.site.records.store.endOf (tally.waited wait).now expiry = expiry :=
      h.endOf_eq _ _
    rw [hend] at hb
    obtain ⟨hanswer, hplain, hnow, -⟩ :=
      h.become (Records.reply_mark e) hb (h.holds_marked hfresh expiry)
    rw [(h.remembers_eq_false wait jti).mpr hfresh] at hanswers
    refine ⟨hanswer.trans hanswers.symm, hplain, hnow, fun hrefused => ?_⟩
    rw [hanswers] at hrefused
    cases hrefused

theorem Plain.turned (h : tally.Plain) (wait : Nat) (call : ReplayCall) : tally.Turned wait call := by
  cases call with
  | isUsed jti => exact h.turned_isUsed wait jti
  | mark jti expiry => exact h.turned_mark wait jti expiry

theorem plain_run (h : tally.Plain) (calls : List (Nat × ReplayCall)) :
    (calls.foldl Tally.turn tally).Plain := by
  induction calls generalizing tally with
  | nil => exact h
  | cons c rest ih => exact ih (h.turned c.1 c.2).plain

theorem answers_congr {tally' : Tally} (h : tally.Plain) (h' : tally'.Plain)
    (hnow : tally'.site.now = tally.site.now) (hmarks : tally'.marks = tally.marks)
    (calls : List (Nat × ReplayCall)) : tally'.answers calls = tally.answers calls := by
  induction calls generalizing tally tally' with
  | nil => rfl
  | cons c rest ih =>
    obtain ⟨wait, call⟩ := c
    have hturned := h.turned wait call
    have hturned' := h'.turned wait call
    have hwaited : (tally'.waited wait).now = (tally.waited wait).now := by
      simp only [waited, hnow]
    have hremembers (jti : Text) : tally'.remembers wait jti = tally.remembers wait jti := by
      unfold remembers
      rw [hmarks, hwaited]
    have hsame : tally'.answer (wait, call) = tally.answer (wait, call) := by
      rw [hturned.answer, hturned'.answer]
      cases call <;> simp only [plainAnswer, hremembers]
    have hmarks' : (tally'.turn (wait, call)).marks = (tally.turn (wait, call)).marks := by
      change tally'.marksAfter call (tally'.answer (wait, call)) =
        tally.marksAfter call (tally.answer (wait, call))
      rw [hsame]
      unfold marksAfter
      rw [hmarks]
    have hnow' : (tally'.turn (wait, call)).site.now = (tally.turn (wait, call)).site.now := by
      rw [hturned'.now, hturned.now, hwaited]
    unfold answers
    rw [hsame, ih hturned.plain hturned'.plain hnow' hmarks']

/-- Whatever was asked before, with whatever threshold: an identifier is used exactly if the expiry of
its last mark is still to come; a mark is refused exactly then, and no later call can tell that it was
tried; and the threshold shows in no answer. -/
theorem purge_unseen (threshold : Int) (start : Instant) (calls : List (Nat × ReplayCall)) :
    let tally := calls.foldl turn (opened threshold start)
    (∀ wait jti, tally.answer (wait, .isUsed jti) = .ok (.bool (tally.remembers wait jti))) ∧
    (∀ wait jti expiry, tally.answer (wait, .mark jti expiry) =
      if tally.remembers wait jti then .error (.refuse .replayed) else .ok .null) ∧
    (∀ wait jti expiry, tally.answer (wait, .mark jti expiry) = .error (.refuse .replayed) →
      Records.Indistinguishable (tally.waited wait).now tally.site.records
        (tally.turn (wait, .mark jti expiry)).site.records) ∧
    ∀ threshold', (opened threshold' start).answers calls = (opened threshold start).answers calls := by
  have hplain := plain_run (plain_opened threshold start) calls
  refine ⟨fun wait jti => (hplain.turned wait (.isUsed jti)).answer,
    fun wait jti expiry => (hplain.turned wait (.mark jti expiry)).answer, ?_, fun threshold' => ?_⟩
  · intro wait jti expiry hrefused
    have hturned := hplain.turned wait (.mark jti expiry)
    exact hturned.unseen (hturned.answer.symm.trans hrefused)
  · exact answers_congr (plain_opened threshold start) (plain_opened threshold' start) rfl rfl calls

end Tally
end AssertionGrant
