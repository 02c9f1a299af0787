import AssertionGrant.Proofs.Purging

/-! How long the shared server keeps a record. The seconds that are left until an expiry are counted
in double precision and rounded up, so a record is kept for less than a second too long, and never
too short as long as the count holds every microsecond. Expiries 2³⁴ seconds ahead and more may lose
the microseconds beyond their whole seconds, and then the record ends that much before its expiry. -/

namespace AssertionGrant

namespace Span

/-- The microseconds beyond the whole seconds of a span are lost when its seconds are counted in
double precision: they are at most half the distance of neighbouring values. -/
def Blurs (s : Span) : Prop :=
  0 < s.micros % 1000000 ∧
    s.micros % 1000000 * 2 ^ 53 ≤ 1000000 * 2 ^ (s.micros / 1000000).toNat.log2

instance (s : Span) : Decidable s.Blurs := inferInstanceAs (Decidable (_ ∧ _))

variable {s : Span}

theorem Blurs.leadingBit (h : s.Blurs) : 34 ≤ (s.micros / 1000000).toNat.log2 := by
  obtain ⟨hpos, hle⟩ := h
  by_contra hlt
  have hpow : 2 ^ (s.micros / 1000000).toNat.log2 ≤ 2 ^ 33 :=
    Nat.pow_le_pow_right (by decide) (by omega)
  zify at hpow
  omega

theorem Blurs.long (h : s.Blurs) : 2 ^ 34 * 1000000 ≤ s.micros := by
  have hbit := h.leadingBit
  have hne : (s.micros / 1000000).toNat ≠ 0 := by
    intro hzero
    rw [hzero] at hbit
    exact absurd hbit (by decide)
  have hself := Nat.log2_self_le hne
  have hpow : 2 ^ 34 ≤ 2 ^ (s.micros / 1000000).toNat.log2 := Nat.pow_le_pow_right (by decide) hbit
  omega

theorem Blurs.rest_le (h : s.Blurs) (hs : s.micros ≤ Instant.last - Instant.first) :
    s.micros % 1000000 ≤ 30 := by
  obtain ⟨-, hle⟩ := h
  unfold Instant.last Instant.first at hs
  have hbit : (s.micros / 1000000).toNat.log2 ≤ 38 := by
    by_cases hne : (s.micros / 1000000).toNat = 0
    · rw [hne]
      decide
    · have := (Nat.log2_lt hne).mpr (show (s.micros / 1000000).toNat < 2 ^ 39 by omega)
      omega
  have hpow : 2 ^ (s.micros / 1000000).toNat.log2 ≤ 2 ^ 38 := Nat.pow_le_pow_right (by decide) hbit
  zify at hpow
  omega

end Span

theorem Binary64.ceil_le_of_neg {p : Int} (h : p < 0) (d : Nat) :
    ((ofRatio p d).ceil?).getD 1 ≤ 1 := by
  have hratio : ofRatio p d = ofUnits true (p.natAbs * unit) d := by
    unfold ofRatio
    rw [decide_eq_true h]
  rw [hratio]
  unfold ofUnits
  dsimp only
  generalize nearestUnits (p.natAbs * unit) d = u
  split
  · exact Int.le_refl 1
  · unfold ceil?
    dsimp only
    generalize u / unit = whole
    rw [if_pos rfl, Option.getD_some]
    omega

theorem Instant.seconds_since (t t' : Instant) :
    (t.since t').seconds = Binary64.ofRatio (t.micros - t'.micros) 1000000 := by
  unfold Instant.since Span.seconds
  rfl

namespace ReplayStore

variable {now expiry : Instant}

theorem keepSeconds_near (h : expiry.micros ≤ now.micros + 1000000) : keepSeconds now expiry = 1 := by
  have hceil : ((expiry.since now).seconds.ceil?).getD 1 ≤ 1 := by
    rw [Instant.seconds_since]
    by_cases hpast : expiry.micros - now.micros < 0
    · exact Binary64.ceil_le_of_neg hpast _
    · obtain ⟨p, hp⟩ : ∃ p : Nat, expiry.micros - now.micros = p :=
        ⟨_, (Int.toNat_of_nonneg (by omega)).symm⟩
      obtain ⟨c, hc, hle⟩ := Binary64.exists_ceil_le_of_ratio (p := p) (k := 1) (by decide) (by omega)
      rw [hp, hc]
      exact hle
  unfold keepSeconds
  omega

/-- A record for an expiry more than a second ahead is kept for the whole seconds until then and one
more, unless there is nothing beyond the whole seconds or that is lost. -/
theorem keepSeconds_far {q r : Nat} (h : expiry.micros = now.micros + (q * 1000000 + r : Nat))
    (hq : 1 ≤ q) (hq' : q < 2 ^ 39) (hr : r < 1000000) :
    q ≤ keepSeconds now expiry ∧
      (q < keepSeconds now expiry ↔ 1000000 * 2 ^ q.log2 < r * 2 ^ 53) := by
  have hne : q ≠ 0 := by omega
  have hbit : q.log2 < 39 := (Nat.log2_lt hne).mpr hq'
  obtain ⟨k, hk, hge, hiff⟩ := Binary64.lt_ceil_of_ratio_iff (r := r) (e := q.log2) (by omega)
    (Nat.log2_self_le hne) Nat.lt_log2_self hr
  have hkeep : keepSeconds now expiry = (max 1 k).toNat := by
    have hspan : expiry.micros - now.micros = (q * 1000000 + r : Nat) := by omega
    unfold keepSeconds
    rw [Instant.seconds_since, hspan, hk, Option.getD_some]
  rw [hkeep, ← hiff]
  omega

theorem endOf_shared_cases (hnow : Instant.inRange now.micros = true)
    (hexpiry : Instant.inRange expiry.micros = true) :
    (shared.endOf now expiry).micros ≤ max expiry.micros now.micros + 1000000 ∧
      (expiry.micros ≤ (shared.endOf now expiry).micros ↔ ¬ (expiry.since now).Blurs) ∧
      ((expiry.since now).Blurs → expiry.micros ≤ (shared.endOf now expiry).micros + 30) := by
  have hspan : (expiry.since now).micros = expiry.micros - now.micros := rfl
  have hend : (shared.endOf now expiry).micros = now.micros + keepSeconds now expiry * 1000000 := rfl
  have hlong := Instant.since_le hnow hexpiry
  by_cases hnear : expiry.micros ≤ now.micros + 1000000
  · have hsharp : ¬ (expiry.since now).Blurs := fun h => by
      have := h.long
      clear hend
      omega
    rw [hend, keepSeconds_near hnear]
    exact ⟨by omega, iff_of_true (by omega) hsharp, fun h => absurd h hsharp⟩
  have habove := shared.endOf_le (by omega) hnow hexpiry
  have hslack : shared.slack = 999999 := rfl
  rw [hend, hslack] at habove
  rw [hend]
  clear hend hslack
  obtain ⟨q, hq⟩ : ∃ q : Nat, (expiry.micros - now.micros) / 1000000 = q :=
    ⟨_, (Int.toNat_of_nonneg (by omega)).symm⟩
  obtain ⟨r, hr⟩ : ∃ r : Nat, (expiry.micros - now.micros) % 1000000 = r :=
    ⟨_, (Int.toNat_of_nonneg (by omega)).symm⟩
  have hshort : q < 2 ^ 39 := by
    unfold Instant.last Instant.first at hlong
    omega
  have hfar : expiry.micros = now.micros + (q * 1000000 + r : Nat) := by omega
  obtain ⟨hge, hiff⟩ := keepSeconds_far hfar (by omega) hshort (by omega)
  generalize keepSeconds now expiry = k at *
  have hblurs : (expiry.since now).Blurs ↔ 0 < r ∧ ¬ q < k := by
    unfold Span.Blurs
    rw [hspan, hq, hr, Int.toNat_natCast, hiff, Nat.not_lt]
    norm_cast
  have hrest (h : (expiry.since now).Blurs) : (r : Int) ≤ 30 := by
    rw [← hr, ← hspan]
    exact h.rest_le hlong
  rw [hblurs] at hrest ⊢
  exact ⟨by omega, by omega, fun h => by have := hrest h; omega⟩

end ReplayStore

namespace Tally
open Act

variable {tally : Tally} {jti : Text} {end_ : Instant}

structure LiveUntil (jti : Text) (end_ : Instant) (tally : Tally) : Prop where
  undisturbed : tally.site.disturbances = {}
  up : ¬ tally.site.records.Down
  distinct : tally.site.records.store.Distinct
  holds : ∀ t, tally.site.now.micros ≤ t.micros →
    (tally.site.records.Holds t jti ↔ t.micros < end_.micros)

def MarksBefore (jti : Text) (end_ : Instant) : Instant → List (Nat × ReplayCall) → Prop
  | _, [] => True
  | now, (wait, call) :: rest =>
    ((∃ expiry, call = .mark jti expiry) → now.micros + wait < end_.micros) ∧
      MarksBefore jti end_ ⟨now.micros + wait⟩ rest

theorem now_le_waited (tally : Tally) (wait : Nat) :
    tally.site.now.micros ≤ (tally.waited wait).now.micros := by
  simp only [waited]
  omega

theorem LiveUntil.holds_waited (h : tally.LiveUntil jti end_) (wait : Nat) :
    tally.site.records.Holds (tally.waited wait).now jti ↔
      (tally.waited wait).now.micros < end_.micros := h.holds _ (tally.now_le_waited wait)

theorem liveUntil_of_marked {wait : Nat} {expiry : Instant} (h : tally.site.disturbances = {})
    (hd : tally.site.records.store.Distinct)
    (hmark : tally.answer (wait, .mark jti expiry) = .ok .null) :
    (tally.turn (wait, .mark jti expiry)).LiveUntil jti
        (tally.site.replays.endOf (tally.waited wait).now expiry) ∧
      (tally.turn (wait, .mark jti expiry)).site.now = (tally.waited wait).now := by
  rcases Records.mark_cases hd (tally.waited wait).now jti expiry with
    ⟨-, e⟩ | ⟨-, -, b, e, -⟩ | ⟨hup, hfresh, b, e, hb⟩
  · rw [(turn_of_reply h (Records.reply_mark_fails e)).1] at hmark
    cases hmark
  · rw [(turn_of_reply h (Records.reply_mark e)).1] at hmark
    cases hmark
  · obtain ⟨-, calls, hsite⟩ := turn_of_reply h (Records.reply_mark e)
    rw [hsite]
    refine ⟨⟨?_, ?_, ?_, fun t ht => ?_⟩, rfl⟩ <;> rw [hsite]
    · exact h
    · exact fun hdown => hup (hb.down.mp hdown)
    · exact hb.distinct
    · rw [hsite] at ht
      refine (hb.holds t jti ht).trans ((or_iff_right fun hl => ?_).trans (and_iff_right rfl))
      exact hfresh (Records.holds_earlier hl ht)

theorem answer_mark_of_fresh {wait : Nat} {expiry : Instant} (h : tally.site.disturbances = {})
    (hd : tally.site.records.store.Distinct) (hup : ¬ tally.site.records.Down)
    (hfresh : ¬ tally.site.records.Holds (tally.waited wait).now jti) :
    tally.answer (wait, .mark jti expiry) = .ok .null := by
  rcases Records.mark_cases hd (tally.waited wait).now jti expiry with
    ⟨hdown, -⟩ | ⟨-, hlive, -⟩ | ⟨-, -, b, e, -⟩
  · exact absurd hdown hup
  · exact absurd hlive hfresh
  · exact (turn_of_reply h (Records.reply_mark e)).1

theorem LiveUntil.turn (h : tally.LiveUntil jti end_) (wait : Nat) (call : ReplayCall)
    (hearly : (∃ expiry, call = .mark jti expiry) →
      (tally.waited wait).now.micros < end_.micros) :
    (tally.turn (wait, call)).LiveUntil jti end_ ∧
      (tally.turn (wait, call)).site.now = (tally.waited wait).now := by
  have hkept := Records.reply_alikeOn h.distinct call
    fun expiry e => (h.holds_waited wait).mpr (hearly ⟨expiry, e⟩)
  obtain ⟨-, calls, hsite⟩ := turn_of_reply h.undisturbed
    (show tally.site.records.reply (tally.waited wait).now call = _ from rfl)
  rw [hsite]
  refine ⟨⟨?_, ?_, ?_, fun t ht => ?_⟩, rfl⟩ <;> rw [hsite]
  · exact h.undisturbed
  · exact fun hdown => h.up (hkept.become.down.mp hdown)
  · exact hkept.become.distinct
  · rw [hsite] at ht
    exact (hkept.holds t jti rfl ht).trans (h.holds t (Int.le_trans (tally.now_le_waited wait) ht))

theorem LiveUntil.foldl (h : tally.LiveUntil jti end_) {calls : List (Nat × ReplayCall)}
    (hearly : MarksBefore jti end_ tally.site.now calls) :
    (calls.foldl Tally.turn tally).LiveUntil jti end_ := by
  induction calls generalizing tally with
  | nil => exact h
  | cons c rest ih =>
    obtain ⟨wait, call⟩ := c
    obtain ⟨hfirst, hrest⟩ := hearly
    obtain ⟨hturn, hnow⟩ := h.turn wait call hfirst
    refine ih hturn ?_
    rw [hnow]
    exact hrest

theorem LiveUntil.answers (h : tally.LiveUntil jti end_) (wait : Nat) :
    tally.answer (wait, .isUsed jti) =
        .ok (.bool (decide ((tally.waited wait).now.micros < end_.micros))) ∧
      ∀ expiry, tally.answer (wait, .mark jti expiry) = .error (.refuse .replayed) ↔
        (tally.waited wait).now.micros < end_.micros := by
  have hholds := h.holds_waited wait
  refine ⟨?_, fun expiry => ?_⟩
  · rcases Records.isUsed_cases h.distinct (tally.waited wait).now jti with
      ⟨hdown, -⟩ | ⟨-, used, b, e, hused, -⟩
    · exact absurd hdown h.up
    · have hsame : used = decide ((tally.waited wait).now.micros < end_.micros) := by
        rw [Bool.eq_iff_iff, hused, hholds, decide_eq_true_eq]
      rw [(turn_of_reply h.undisturbed (Records.reply_isUsed e)).1, hsame]
      rfl
  · rw [← hholds]
    rcases Records.mark_cases h.distinct (tally.waited wait).now jti expiry with
      ⟨hdown, -⟩ | ⟨-, hlive, b, e, -⟩ | ⟨-, hfresh, b, e, -⟩
    · exact absurd hdown h.up
    · rw [(turn_of_reply h.undisturbed (Records.reply_mark e)).1]
      exact iff_of_true rfl hlive
    · rw [(turn_of_reply h.undisturbed (Records.reply_mark e)).1]
      exact iff_of_false nofun hfresh

/-- A mark on the shared server is live until an end that is no second later than the expiry, or than
now if that is later: at every reading before that end, and at none from it on, the identifier is used
and a mark of it refused. The end is not before the expiry, unless counting the span until then loses
its rest; that takes 2³⁴ seconds and costs thirty microseconds at most. -/
theorem shared_record {wait : Nat} {expiry : Instant} (h : tally.site.disturbances = {})
    (hshared : tally.site.replays = .shared)
    (hnow : Instant.inRange (tally.waited wait).now.micros = true)
    (hexpiry : Instant.inRange expiry.micros = true)
    (hmark : tally.answer (wait, .mark jti expiry) = .ok .null) :
    let now := (tally.waited wait).now
    let span := expiry.since now
    ∃ end_ : Instant, now.micros < end_.micros ∧
      end_.micros ≤ max expiry.micros now.micros + 1000000 ∧
      (expiry.micros ≤ end_.micros ↔ ¬ span.Blurs) ∧
      (span.Blurs → 2 ^ 34 * 1000000 ≤ span.micros ∧ expiry.micros ≤ end_.micros + 30) ∧
      ∀ calls wait', MarksBefore jti end_ now calls →
        let later := calls.foldl turn (tally.turn (wait, .mark jti expiry))
        later.answer (wait', .isUsed jti) =
            .ok (.bool (decide ((later.waited wait').now.micros < end_.micros))) ∧
          ∀ expiry', later.answer (wait', .mark jti expiry') = .error (.refuse .replayed) ↔
            (later.waited wait').now.micros < end_.micros := by
  have hd : tally.site.records.store.Distinct := by
    change tally.site.replays.Distinct
    rw [hshared]
    trivial
  obtain ⟨hlive, hturned⟩ := liveUntil_of_marked h hd hmark
  rw [hshared] at hlive
  obtain ⟨hend, hsharp, hshort⟩ := ReplayStore.endOf_shared_cases hnow hexpiry
  refine ⟨_, ?_, hend, hsharp, fun hblurs => ⟨hblurs.long, hshort hblurs⟩, ?_⟩
  · have := ReplayStore.one_le_keepSeconds (tally.waited wait).now expiry
    change (tally.waited wait).now.micros <
      (tally.waited wait).now.micros + ReplayStore.keepSeconds (tally.waited wait).now expiry * 1000000
    generalize ReplayStore.keepSeconds (tally.waited wait).now expiry = k at *
    omega
  · intro calls wait' hearly
    refine (hlive.foldl ?_).answers wait'
    rw [hturned]
    exact hearly

theorem shared_record_short :
    let tally : Tally := { site := { now := ⟨0⟩, replays := .shared } }
    let mark := ReplayCall.mark "a" ⟨17179869184000001⟩
    tally.answer (0, mark) = .ok .null ∧ Span.Blurs ⟨17179869184000001⟩ ∧
      (tally.turn (0, mark)).answer (17179869184000000, .isUsed "a") = .ok (.bool false) := by
  intro tally mark
  have hmark : tally.answer (0, mark) = .ok .null := by
    refine answer_mark_of_fresh rfl trivial (fun hdown => hdown.2 rfl) ?_
    rintro ⟨_, h, -⟩
    cases h
  have hblurs : Span.Blurs ⟨17179869184000001⟩ := by decide +kernel
  obtain ⟨end_, -, -, hsharp, -, hlater⟩ := shared_record rfl rfl (by decide) (by decide) hmark
  have hend : ¬ 17179869184000001 ≤ end_.micros := fun h => hsharp.mp h hblurs
  obtain ⟨hused, -⟩ := hlater [] 17179869184000000 trivial
  refine ⟨hmark, hblurs, hused.trans ?_⟩
  have hundisturbed : tally.site.disturbances = {} := rfl
  have hdistinct : tally.site.records.store.Distinct := trivial
  obtain ⟨-, hturned⟩ := liveUntil_of_marked hundisturbed hdistinct hmark
  have hnow : ((tally.turn (0, mark)).waited 17179869184000000).now.micros = 17179869184000000 := by
    simp only [waited, hturned, mark]
    rfl
  have hover : ¬ ((tally.turn (0, mark)).waited 17179869184000000).now.micros < end_.micros := by
    rw [hnow]
    omega
  rw [List.foldl_nil, decide_eq_false hover]

end Tally
end AssertionGrant
