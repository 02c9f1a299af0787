import AssertionGrant.Proofs.Purging

/-! How large the records in memory grow. A mark sweeps them when they have reached the threshold, so
after it they are within the threshold, or all but the new one are live. No other call adds a record,
and none takes away a live one. The clock is read anew for each call, and nothing is assumed about the
order of the readings: those of calls that overlap need not be in order. -/

namespace AssertionGrant

namespace Ledger

variable {ledger : Ledger} {now : Instant} {threshold : Int} {jti : Text} {expiry : Instant}
  {r : Text × Instant}

theorem mem_purge : r ∈ ledger.purge now ↔ r ∈ ledger ∧ now.micros < r.2.micros := by
  simp [purge, isLive]

theorem swept_sublist (ledger : Ledger) (now : Instant) (threshold : Int) :
    (ledger.swept now threshold).Sublist ledger := by
  unfold swept
  split
  · exact List.filter_sublist
  · exact List.Sublist.refl ledger

theorem mem_swept_of_live (hr : r ∈ ledger) (hlive : now.micros < r.2.micros) :
    r ∈ ledger.swept now threshold := by
  unfold swept
  split
  · exact mem_purge.mpr ⟨hr, hlive⟩
  · exact hr

theorem swept_cases (ledger : Ledger) (now : Instant) (threshold : Int) :
    ((ledger.swept now threshold).length : Int) < threshold ∨
      ∀ r ∈ ledger.swept now threshold, now.micros < r.2.micros := by
  unfold swept
  split
  · right
    intro r hr
    exact (mem_purge.mp hr).2
  · next hroom =>
    left
    exact Int.not_le.mp hroom

theorem length_put_le (jti : Text) (expiry : Instant) (ledger : Ledger) :
    (put jti expiry ledger).length ≤ ledger.length + 1 := by
  induction ledger with
  | nil => exact Nat.le_refl 1
  | cons r rest ih =>
    rw [put]
    split
    · simp
    · simpa using ih

theorem snd_isUsed_cases (ledger : Ledger) (now : Instant) (jti : Text) :
    (ledger.isUsed now jti).2 = ledger ∨
      ∃ known, (jti, known) ∈ ledger ∧ known.micros ≤ now.micros ∧
        (ledger.isUsed now jti).2 = ledger.filter (·.1 ≠ jti) := by
  unfold isUsed
  split
  · exact .inl rfl
  · next known hf =>
    split
    · next hended => exact .inr ⟨known, mem_of_find? hf, hended, rfl⟩
    · exact .inl rfl

theorem isUsed_sublist (ledger : Ledger) (now : Instant) (jti : Text) :
    (ledger.isUsed now jti).2.Sublist ledger := by
  rcases snd_isUsed_cases ledger now jti with e | ⟨_, -, -, e⟩ <;> rw [e]
  exact List.filter_sublist

theorem Distinct.mem_isUsed (h : ledger.Distinct) (hr : r ∈ ledger)
    (hlive : now.micros < r.2.micros) : r ∈ (ledger.isUsed now jti).2 := by
  rcases snd_isUsed_cases ledger now jti with e | ⟨known, hknown, hended, e⟩ <;> rw [e]
  · exact hr
  · have hother : r.1 ≠ jti := by
      intro hjti
      have hsame : r = (jti, known) := h.eq_of_mem hr hknown hjti
      rw [hsame] at hlive
      exact absurd hended (Int.not_le.mpr hlive)
    apply List.mem_filter.mpr
    exact ⟨hr, decide_eq_true hother⟩

theorem Distinct.mark (h : ledger.Distinct) : (ledger.mark now threshold jti expiry).2.Distinct := by
  have hswept := h.swept now threshold
  rcases mark_eq h now threshold jti expiry with ⟨-, e⟩ | ⟨-, e⟩ <;> rw [e]
  · exact hswept
  · exact hswept.put

theorem Distinct.mem_mark (h : ledger.Distinct) (hr : r ∈ ledger)
    (hlive : now.micros < r.2.micros) : r ∈ (ledger.mark now threshold jti expiry).2 := by
  have hkept : r ∈ ledger.swept now threshold := mem_swept_of_live hr hlive
  rcases mark_eq h now threshold jti expiry with ⟨-, e⟩ | ⟨hfresh, e⟩ <;> rw [e]
  · exact hkept
  · have hother : r.1 ≠ jti := fun e => hfresh ⟨r, hr, e, hlive⟩
    exact (mem_put (h.swept now threshold)).mpr (.inr ⟨hkept, hother⟩)

theorem Distinct.mark_sublist (h : ledger.Distinct)
    (hrefused : (ledger.mark now threshold jti expiry).1 = false) :
    (ledger.mark now threshold jti expiry).2.Sublist ledger := by
  rcases mark_eq h now threshold jti expiry with ⟨-, e⟩ | ⟨-, e⟩ <;> rw [e] at hrefused ⊢
  · exact swept_sublist ledger now threshold
  · cases hrefused

theorem Distinct.marked (h : ledger.Distinct)
    (hmade : (ledger.mark now threshold jti expiry).1 = true) :
    (jti, expiry) ∈ (ledger.mark now threshold jti expiry).2 ∧
      (((ledger.mark now threshold jti expiry).2.length : Int) ≤ threshold ∨
        ∀ r ∈ (ledger.mark now threshold jti expiry).2, r ≠ (jti, expiry) →
          now.micros < r.2.micros) := by
  rcases mark_eq h now threshold jti expiry with ⟨-, e⟩ | ⟨-, e⟩ <;> rw [e] at hmade ⊢
  · cases hmade
  · have hmem {r : Text × Instant} : r ∈ (ledger.swept now threshold).put jti expiry ↔
        r = (jti, expiry) ∨ r ∈ ledger.swept now threshold ∧ r.1 ≠ jti :=
      mem_put (h.swept now threshold)
    refine ⟨hmem.mpr (.inl rfl), ?_⟩
    rcases swept_cases ledger now threshold with hroom | hlive
    · left
      have hput := length_put_le jti expiry (ledger.swept now threshold)
      dsimp only
      omega
    · right
      intro r hr hne
      rcases hmem.mp hr with rfl | ⟨hswept, -⟩
      · exact absurd rfl hne
      · exact hlive r hswept

section Replies

def reply (ledger : Ledger) (threshold : Int) (now : Instant) : ReplayCall → Bool × Ledger
  | .isUsed jti => ledger.isUsed now jti
  | .mark jti expiry => ledger.mark now threshold jti expiry

theorem Distinct.reply (h : ledger.Distinct) (threshold : Int) (now : Instant) (call : ReplayCall) :
    (ledger.reply threshold now call).2.Distinct := by
  cases call with
  | isUsed jti => exact h.isUsed
  | mark jti expiry => exact h.mark

theorem Distinct.mem_reply (h : ledger.Distinct) (call : ReplayCall) (hr : r ∈ ledger)
    (hlive : now.micros < r.2.micros) : r ∈ (ledger.reply threshold now call).2 := by
  cases call with
  | isUsed jti => exact h.mem_isUsed hr hlive
  | mark jti expiry => exact h.mem_mark hr hlive

theorem reply_records (ledger : Ledger) (threshold : Int) (now : Instant) (call : ReplayCall)
    (cache : Cache) : Records.reply ⟨.memory threshold ledger, cache⟩ now call =
      (.ok (ledger.reply threshold now call).1,
        ⟨.memory threshold (ledger.reply threshold now call).2, cache⟩) := by
  cases call <;> rfl

end Replies
end Ledger

namespace ReplayCall

theorem worded_mark {jti : Text} {expiry : Instant} {made : Bool} :
    (mark jti expiry).worded (.ok made) = .ok .null ↔ made = true := by
  cases made with
  | false => exact iff_of_false nofun nofun
  | true => exact iff_of_true rfl rfl

end ReplayCall

def ReplayStore.kept : ReplayStore → Ledger
  | .memory _ ledger => ledger
  | .shared => []

namespace Site

def ask (s : Site) (c : Instant × ReplayCall) : Except Failure Json × Site :=
  c.2.act.outcome { s with now := c.1 }

def asked (threshold : Int) (start : Instant) (calls : List (Instant × ReplayCall)) : Site :=
  calls.foldl (fun s c => (s.ask c).2) { now := start, replays := .memory threshold [] }

structure Tends (threshold : Int) (ledger : Ledger) (s : Site) : Prop where
  undisturbed : s.disturbances = {}
  replays : s.replays = .memory threshold ledger
  distinct : ledger.Distinct

variable {s : Site} {threshold : Int} {ledger : Ledger}

theorem Tends.ask (h : s.Tends threshold ledger) (t : Instant) (call : ReplayCall) :
    (s.ask (t, call)).1 = call.worded (.ok (ledger.reply threshold t call).1) ∧
      (s.ask (t, call)).2.Tends threshold (ledger.reply threshold t call).2 := by
  have hquiet : ({ s with now := t } : Site).disturbances = {} := h.undisturbed
  have hrecords : ({ s with now := t } : Site).records = ⟨.memory threshold ledger, s.cache⟩ := by
    unfold records
    rw [h.replays]
  obtain ⟨calls, e⟩ := ReplayCall.outcome_act hquiet call
  rw [hrecords, Ledger.reply_records] at e
  unfold Site.ask
  rw [e]
  exact ⟨rfl, h.undisturbed, rfl, h.distinct.reply threshold t call⟩

theorem Tends.foldl (h : s.Tends threshold ledger) (calls : List (Instant × ReplayCall)) :
    ∃ ledger', (calls.foldl (fun s c => (s.ask c).2) s).Tends threshold ledger' := by
  induction calls generalizing s ledger with
  | nil => exact ⟨ledger, h⟩
  | cons c rest ih => exact ih (h.ask c.1 c.2).2

theorem exists_tends_asked (threshold : Int) (start : Instant)
    (calls : List (Instant × ReplayCall)) :
    ∃ ledger, (asked threshold start calls).Tends threshold ledger := by
  have hopened : Tends threshold [] { now := start, replays := .memory threshold [] } :=
    ⟨rfl, rfl, List.nodup_nil⟩
  exact hopened.foldl calls

theorem Tends.kept (h : s.Tends threshold ledger) : s.replays.kept = ledger := by
  rw [h.replays]
  rfl

/-- Whatever was asked before, with whatever threshold and at whatever readings of the clock: after a
mark that is made, the records in memory are within the threshold, or all but the new one are live;
every call keeps the live records; and one that makes no mark adds none, so that the bound stays until
the next mark is made. -/
theorem records_bounded (threshold : Int) (start : Instant) (calls : List (Instant × ReplayCall)) :
    let s := asked threshold start calls
    s.replays.kept.Distinct ∧
    (∀ t jti expiry, (s.ask (t, .mark jti expiry)).1 = .ok .null →
      let ledger := (s.ask (t, .mark jti expiry)).2.replays.kept
      (jti, expiry) ∈ ledger ∧
        (ledger.length ≤ threshold ∨
          ∀ r ∈ ledger, r ≠ (jti, expiry) → t.micros < r.2.micros)) ∧
    (∀ t call, ∀ r ∈ s.replays.kept, t.micros < r.2.micros →
      r ∈ (s.ask (t, call)).2.replays.kept) ∧
    ∀ t call, (s.ask (t, call)).1 ≠ .ok .null →
      (s.ask (t, call)).2.replays.kept.Sublist s.replays.kept := by
  intro s
  obtain ⟨ledger, h⟩ := exists_tends_asked threshold start calls
  have hkept : s.replays.kept = ledger := h.kept
  have hafter (t : Instant) (call : ReplayCall) :
      (s.ask (t, call)).2.replays.kept = (ledger.reply threshold t call).2 := (h.ask t call).2.kept
  rw [hkept]
  refine ⟨h.distinct, ?_, ?_, ?_⟩
  · intro t jti expiry hmade
    rw [hafter]
    rw [(h.ask t _).1, ReplayCall.worded_mark] at hmade
    exact h.distinct.marked hmade
  · intro t call r hr hlive
    rw [hafter]
    exact h.distinct.mem_reply call hr hlive
  · intro t call hnot
    rw [hafter]
    rw [(h.ask t call).1] at hnot
    cases call with
    | isUsed jti => exact Ledger.isUsed_sublist ledger t jti
    | mark jti expiry =>
      rw [ne_eq, ReplayCall.worded_mark, Bool.not_eq_true] at hnot
      exact h.distinct.mark_sublist hnot

theorem records_swept :
    let a : Text × Instant := ("a", ⟨60⟩)
    let b : Text × Instant := ("b", ⟨60⟩)
    let c : Text × Instant := ("c", ⟨600⟩)
    let d : Text × Instant := ("d", ⟨600⟩)
    let s := asked 3 ⟨0⟩ [(⟨0⟩, .mark a.1 a.2), (⟨0⟩, .mark b.1 b.2), (⟨120⟩, .mark c.1 c.2)]
    let marked := s.ask (⟨120⟩, .mark d.1 d.2)
    s.replays.kept = [a, b, c] ∧ marked.1 = .ok .null ∧ marked.2.replays.kept = [c, d] ∧
      (d ∈ marked.2.replays.kept ∧ (marked.2.replays.kept.length ≤ (3 : Int) ∨
        ∀ r ∈ marked.2.replays.kept, r ≠ d → 120 < r.2.micros)) ∧
      c ∈ marked.2.replays.kept ∧
      (s.ask (⟨120⟩, .isUsed "a")).2.replays.kept.Sublist s.replays.kept := by
  intro a b c d s marked
  have hmade : marked.1 = .ok .null := by rfl
  have hkept : s.replays.kept = [a, b, c] := by rfl
  have hunused : (s.ask (⟨120⟩, .isUsed "a")).1 ≠ .ok .null := nofun
  obtain ⟨-, hbound, hlive, hshrinks⟩ := records_bounded 3 ⟨0⟩
    [(⟨0⟩, .mark a.1 a.2), (⟨0⟩, .mark b.1 b.2), (⟨120⟩, .mark c.1 c.2)]
  have hc : c ∈ s.replays.kept := by
    rw [hkept]
    decide
  exact ⟨hkept, hmade, rfl, hbound _ _ _ hmade, hlive _ _ _ hc (by decide), hshrinks _ _ hunused⟩

end Site
end AssertionGrant
