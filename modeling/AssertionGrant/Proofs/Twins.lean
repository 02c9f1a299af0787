import AssertionGrant.Proofs.Expiries

/-! The records in memory and those on the shared server answer alike in whole seconds. A span of whole
seconds is counted exactly, so the server keeps a record until the expiry itself, as the ledger does,
and from then on both answer by the same live records. -/

namespace AssertionGrant

def Instant.Whole (t : Instant) : Prop := t.micros % 1000000 = 0

instance (t : Instant) : Decidable t.Whole := inferInstanceAs (Decidable (_ = _))

namespace ReplayCall

/-- A mark comes before its expiry, and that is a whole second of the calendar. -/
def Punctual (now : Instant) : ReplayCall → Prop
  | .isUsed _ => True
  | .mark _ expiry => expiry.Whole ∧ now.micros < expiry.micros ∧ Instant.inRange expiry.micros = true

def AllPunctual : Instant → List (Nat × ReplayCall) → Prop
  | _, [] => True
  | now, (wait, call) :: rest =>
    let t : Instant := ⟨now.micros + wait⟩
    t.Whole ∧ call.Punctual t ∧ AllPunctual t rest

end ReplayCall

namespace ReplayStore

variable {now expiry : Instant}

theorem keepSeconds_whole {q : Nat} (h : expiry.micros = now.micros + (q * 1000000 : Nat))
    (hq : 1 ≤ q) (hq' : q < 2 ^ 39) : keepSeconds now expiry = q := by
  have hfar : expiry.micros = now.micros + (q * 1000000 + 0 : Nat) := by rw [h, Nat.add_zero]
  obtain ⟨hge, hiff⟩ := keepSeconds_far hfar hq hq' (by omega)
  generalize keepSeconds now expiry = k at *
  omega

theorem endOf_shared_whole (hnow : Instant.first ≤ now.micros) (hwhole : now.Whole)
    (hwhole' : expiry.Whole) (hlt : now.micros < expiry.micros)
    (hexpiry : Instant.inRange expiry.micros = true) : shared.endOf now expiry = expiry := by
  obtain ⟨-, hlast⟩ : Instant.first ≤ expiry.micros ∧ expiry.micros ≤ Instant.last := by
    simpa [Instant.inRange] using hexpiry
  unfold Instant.first at hnow
  unfold Instant.last at hlast
  unfold Instant.Whole at hwhole hwhole'
  obtain ⟨q, hq⟩ : ∃ q : Nat, (expiry.micros - now.micros) / 1000000 = q :=
    ⟨_, (Int.toNat_of_nonneg (by omega)).symm⟩
  have hkeep : keepSeconds now expiry = q :=
    keepSeconds_whole (by omega) (by omega) (by omega)
  have hend : now.micros + q * 1000000 = expiry.micros := by omega
  unfold endOf
  dsimp only
  rw [hkeep, hend]

end ReplayStore

namespace Records

variable {a b : Records} {now : Instant} {call : ReplayCall}

def Exact (a : Records) (now : Instant) : ReplayCall → Prop
  | .isUsed _ => True
  | .mark _ expiry => a.store.endOf now expiry = expiry

theorem exact_of_punctual (hnow : Instant.first ≤ now.micros) (hwhole : now.Whole)
    (h : call.Punctual now) : a.Exact now call := by
  cases call with
  | isUsed jti => trivial
  | mark jti expiry =>
    obtain ⟨hwhole', hlt, hexpiry⟩ := h
    unfold Exact
    cases a.store with
    | memory threshold ledger => rfl
    | shared => exact ReplayStore.endOf_shared_whole hnow hwhole hwhole' hlt hexpiry

def liveAfter (a : Records) (now : Instant) : ReplayCall → Instant → Text → Prop
  | .isUsed _, t, j => a.Holds t j
  | .mark jti expiry, t, j => a.Holds t j ∨ ¬ a.Holds now jti ∧ j = jti ∧ t.micros < expiry.micros

def Answers (a : Records) (now : Instant) : ReplayCall → Bool → Prop
  | .isUsed jti, answer => answer = true ↔ a.Holds now jti
  | .mark jti _, answer => answer = true ↔ ¬ a.Holds now jti

theorem reply_of_exact (hd : a.store.Distinct) (hup : ¬ a.Down) (hexact : a.Exact now call) :
    ∃ answer b, a.reply now call = (.ok answer, b) ∧ a.Answers now call answer ∧
      Become now a (a.liveAfter now call) b := by
  cases call with
  | isUsed jti =>
    rcases isUsed_cases hd now jti with ⟨hdown, -⟩ | ⟨-, used, b, e, hused, hb⟩
    · exact absurd hdown hup
    · exact ⟨used, b, reply_isUsed e, hused, hb⟩
  | mark jti expiry =>
    have hend : a.store.endOf now expiry = expiry := hexact
    rcases mark_cases hd now jti expiry with
      ⟨hdown, -⟩ | ⟨-, hlive, b, e, hb⟩ | ⟨-, hfresh, b, e, hb⟩
    · exact absurd hdown hup
    -- A refused mark changes nothing, and `liveAfter` adds nothing where a record was live.
    · refine ⟨false, b, reply_mark e, iff_of_false Bool.false_ne_true (not_not_intro hlive),
        hb.threshold, hb.server, hb.distinct, fun t j ht => (hb.holds t j ht).trans ?_⟩
      exact (or_iff_left fun h => h.1 hlive).symm
    · rw [hend] at hb
      refine ⟨true, b, reply_mark e, iff_of_true rfl hfresh,
        hb.threshold, hb.server, hb.distinct, fun t j ht => (hb.holds t j ht).trans ?_⟩
      exact or_congr_right (and_iff_right hfresh).symm

structure Twins (now : Instant) (a b : Records) : Prop where
  distinct : a.store.Distinct
  distinct' : b.store.Distinct
  up : ¬ a.Down
  up' : ¬ b.Down
  holds : ∀ t j, now.micros ≤ t.micros → (b.Holds t j ↔ a.Holds t j)

theorem Twins.later {t : Instant} (h : Twins now a b) (ht : now.micros ≤ t.micros) : Twins t a b :=
  ⟨h.distinct, h.distinct', h.up, h.up', fun u j hu => h.holds u j (Int.le_trans ht hu)⟩

theorem Twins.answers_iff (h : Twins now a b) (call : ReplayCall) (answer : Bool) :
    b.Answers now call answer ↔ a.Answers now call answer := by
  cases call <;> simp only [Answers, h.holds now _ (Int.le_refl _)]

theorem Twins.liveAfter_iff {t : Instant} {j : Text} (h : Twins now a b) (call : ReplayCall)
    (ht : now.micros ≤ t.micros) : b.liveAfter now call t j ↔ a.liveAfter now call t j := by
  cases call <;> simp only [liveAfter, h.holds now _ (Int.le_refl _), h.holds t j ht]

theorem Answers.unique {answer answer' : Bool} (h : a.Answers now call answer)
    (h' : a.Answers now call answer') : answer' = answer := by
  cases call <;> exact Bool.eq_iff_iff.mpr (h'.trans h.symm)

theorem Twins.reply (h : Twins now a b) (ha : a.Exact now call) (hb : b.Exact now call) :
    (b.reply now call).1 = (a.reply now call).1 ∧
      Twins now (a.reply now call).2 (b.reply now call).2 := by
  obtain ⟨answer, a', e, hanswer, hbecome⟩ := reply_of_exact h.distinct h.up ha
  obtain ⟨answer', b', e', hanswer', hbecome'⟩ := reply_of_exact h.distinct' h.up' hb
  rw [e, e']
  refine ⟨congrArg Except.ok (hanswer.unique ((h.answers_iff call answer').mp hanswer')), ?_⟩
  exact ⟨hbecome.distinct, hbecome'.distinct, fun hdown => h.up (hbecome.down.mp hdown),
    fun hdown => h.up' (hbecome'.down.mp hdown), fun t j ht =>
      (hbecome'.holds t j ht).trans ((h.liveAfter_iff call ht).trans (hbecome.holds t j ht).symm)⟩

theorem Twins.replies (h : Twins now a b) (hnow : Instant.first ≤ now.micros)
    {calls : List (Nat × ReplayCall)} (hcalls : ReplayCall.AllPunctual now calls) :
    b.replies now calls = a.replies now calls := by
  induction calls generalizing a b now with
  | nil => rfl
  | cons c rest ih =>
    obtain ⟨wait, call⟩ := c
    obtain ⟨hwhole, hpunctual, hrest⟩ := hcalls
    have hwait : now.micros ≤ now.micros + wait := by omega
    have hfirst : Instant.first ≤ now.micros + wait := Int.le_trans hnow hwait
    obtain ⟨hanswer, htwins⟩ := (h.later (t := ⟨now.micros + wait⟩) hwait).reply
      (exact_of_punctual hfirst hwhole hpunctual) (exact_of_punctual hfirst hwhole hpunctual)
    unfold Records.replies
    dsimp only
    rw [hanswer, ih htwins hfirst hrest]

end Records

namespace Tally

variable {tally : Tally}

theorem answers_eq (h : tally.site.disturbances = {}) (calls : List (Nat × ReplayCall)) :
    tally.answers calls = List.zipWith (fun c answer => c.2.worded answer) calls
      (tally.site.records.replies tally.site.now calls) := by
  induction calls generalizing tally with
  | nil => rfl
  | cons c rest ih =>
    obtain ⟨wait, call⟩ := c
    obtain ⟨hanswer, calls, hsite⟩ := turn_of_reply h
      (show tally.site.records.reply (tally.waited wait).now call = _ from rfl)
    have hquiet : (tally.turn (wait, call)).site.disturbances = {} := by
      rw [hsite]
      exact h
    have hrest := ih hquiet
    unfold answers Records.replies
    dsimp only
    rw [hanswer, hrest, hsite]
    rfl

def sharing (start : Instant) (givesText : Bool) (fields : List HashField) : Tally :=
  { site := { now := start, replays := .shared, cache := { givesText, fields } } }

/-- In whole seconds the answers do not tell whether the records are in memory, with whatever
threshold, or on the shared server. -/
theorem answers_sharing (threshold : Int) {start : Instant} (givesText : Bool)
    (fields : List HashField) (hstart : Instant.inRange start.micros = true)
    {calls : List (Nat × ReplayCall)} (hcalls : ReplayCall.AllPunctual start calls) :
    (sharing start givesText fields).answers calls = (opened threshold start).answers calls := by
  have htwins : Records.Twins start (opened threshold start).site.records
      (sharing start givesText fields).site.records := by
    refine ⟨List.nodup_nil, trivial, fun hdown => Option.some_ne_none _ hdown.1,
      fun hdown => hdown.2 rfl, fun t j _ => iff_of_false ?_ ?_⟩
    · rintro ⟨_, h, -⟩
      cases h
    · rintro ⟨_, h, -⟩
      cases h
  obtain ⟨hfirst, -⟩ : Instant.first ≤ start.micros ∧ start.micros ≤ Instant.last := by
    simpa [Instant.inRange] using hstart
  rw [answers_eq rfl, answers_eq rfl]
  exact congrArg _ (htwins.replies hfirst hcalls)

theorem answers_sharing_at_end :
    let calls := [(0, ReplayCall.mark "a" ⟨1000000⟩), (1000000, .mark "a" ⟨2000000⟩)]
    (opened 1 ⟨0⟩).answers calls = [.ok .null, .ok .null] ∧
      (sharing ⟨0⟩ true []).answers calls = [.ok .null, .ok .null] := by
  intro calls
  have hmemory : (opened 1 ⟨0⟩).answers calls = [.ok .null, .ok .null] := by
    rfl
  have hpunctual : ReplayCall.AllPunctual ⟨0⟩ calls :=
    ⟨by decide, ⟨by decide, by decide, by decide⟩, by decide, ⟨by decide, by decide, by decide⟩, trivial⟩
  exact ⟨hmemory, (answers_sharing 1 true [] (by decide) hpunctual).trans hmemory⟩

end Tally
end AssertionGrant
