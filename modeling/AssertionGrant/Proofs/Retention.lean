import AssertionGrant.Proofs.Handling

/-! What no step at a site takes away: a live record stays until it ends, whatever is looked up,
swept, marked or requested in between, and however the clock goes on. -/

namespace AssertionGrant

theorem length_le_one_of_pairwise {α : Type} {l : List α} (h : l.Pairwise fun _ _ => False) :
    l.length ≤ 1 := by
  match l, h with
  | [], _ => exact Nat.zero_le 1
  | [_], _ => exact Nat.le_refl 1
  | a :: b :: _, h => exact absurd (List.rel_of_pairwise_cons h List.mem_cons_self) id

namespace Site

variable {s s' s'' : Site} {jti : Text} {expiry end_ : Instant}

structure Sound (s : Site) : Prop where
  distinct : s.replays.Distinct
  faithful : s.Faithful

structure Kept (s s' : Site) : Prop where
  now : s.now.micros ≤ s'.now.micros
  sound : s'.Sound
  threshold : s'.replays.threshold? = s.replays.threshold?
  holds : ∀ t j, s'.now.micros ≤ t.micros → s.records.Holds t j → s'.records.Holds t j

/-- An identifier has a live record at all readings of the clock before an end. -/
def Guards (s : Site) (jti : Text) (end_ : Instant) : Prop :=
  ∀ t, s.now.micros ≤ t.micros → t.micros < end_.micros → s.records.Holds t jti

theorem Kept.trans (h : Kept s s') (h' : Kept s' s'') : Kept s s'' where
  now := Int.le_trans h.now h'.now
  sound := h'.sound
  threshold := h'.threshold.trans h.threshold
  holds t j ht hl := h'.holds t j ht (h.holds t j (Int.le_trans h'.now ht) hl)

theorem Kept.guards (h : Kept s s') (hg : s.Guards jti end_) : s'.Guards jti end_ :=
  fun t ht hte => h.holds t jti ht (hg t (Int.le_trans h.now ht) hte)

theorem Untouched.kept (h : Untouched s s') (hs : s.Sound) : Kept s s' where
  now := Int.le_of_eq (congrArg Instant.micros h.now).symm
  sound := ⟨h.distinct hs.distinct, h.faithful hs.faithful⟩
  threshold := (h.records hs.distinct).threshold
  holds t j ht hl := by
    rw [h.now] at ht
    exact ((h.records hs.distinct).holds t j ht).mpr hl

theorem MarkedBy.kept (h : MarkedBy jti expiry s s') (hs : s.Sound) : Kept s s' where
  now := Int.le_of_eq (congrArg Instant.micros h.now).symm
  sound := ⟨h.distinct hs.distinct, h.faithful hs.faithful⟩
  threshold := (h.records hs.distinct).threshold
  holds t j ht hl := by
    rw [h.now] at ht
    exact ((h.records hs.distinct).holds t j ht).mpr (.inl hl)

theorem MarkedBy.guards (h : MarkedBy jti expiry s s') (hs : s.Sound) :
    s'.Guards jti (s.replays.endOf s.now expiry) := by
  intro t ht hte
  rw [h.now] at ht
  exact ((h.records hs.distinct).holds t jti ht).mpr (.inr ⟨rfl, hte⟩)

theorem Guards.holds (h : s.Guards jti end_) (hn : s.now.micros < end_.micros) :
    s.records.Holds s.now jti := h s.now (Int.le_refl _) hn

theorem Kept.of_eq (hs : s.Sound) (now : s.now.micros ≤ s'.now.micros)
    (replays : s'.replays = s.replays) (texts : s'.cache.texts = s.cache.texts)
    (disturbances : s'.disturbances = s.disturbances) : Kept s s' where
  now := now
  sound := by
    refine ⟨replays ▸ hs.distinct, ?_⟩
    unfold Faithful
    rw [disturbances]
    exact hs.faithful
  threshold := by rw [replays]
  holds t j _ hl := by
    unfold records Records.Holds at hl ⊢
    dsimp only at hl ⊢
    rw [replays]
    split
    · next hr => simpa only [hr] using hl
    · next hr =>
      unfold Cache.Holds
      rw [texts]
      simpa only [hr, Cache.Holds] using hl

end Site

section Steps

variable {s s' : Site} {jti : Text} {expiry : Instant}

theorem Act.Quiet.kept {α : Type} {x : Act α} (h : x.Quiet) (hs : s.Sound) :
    Site.Kept s (x.outcome s).2 := (h s).kept hs

theorem SingleUse.kept_mark (hs : s.Sound) (jti : Text) (expiry : Instant) :
    Site.Kept s ((mark jti expiry).outcome s).2 := by
  rcases (mark jti expiry).gives_or_fails s with ⟨_, s', h⟩ | ⟨f, s', h⟩
  · rw [h]
    exact (markedBy_of_mark_gives hs.faithful h).kept hs
  · rw [h]
    exact (untouched_of_mark_fails h).kept hs

variable [Json.Nesting]

/-- A request keeps all records, whatever becomes of it. -/
theorem Grant.kept_handled (hs : s.Sound) (g : Grant) (r : AccessRequest) :
    Site.Kept s (g.handled r s).2 := by
  rcases g.handled_cases r s with ⟨_, _, -, -, hu⟩ | ⟨c, s', log, hc, e, -⟩
  · exact hu.kept hs
  · rw [e]
    have hl : s'.Sound → Site.Kept s' { s' with log } := fun hs' =>
      .of_eq hs' (Int.le_refl _) rfl rfl rfl
    obtain ⟨-, expiry, -, ⟨-, hu⟩ | ⟨-, hm⟩⟩ := of_clear_gives hs.faithful hc
    · exact (hu.kept hs).trans (hl (hu.kept hs).sound)
    · exact (hm.kept hs).trans (hl (hm.kept hs).sound)

theorem Grant.of_accepted {g : Grant} {r : AccessRequest} (hs : s.Sound)
    (h : (g.handled r s).1.result = .ok ()) :
    ∃ c expiry, r.claimed? = some c ∧ Claims.checkStateless g.settings c s.now = .ok expiry ∧
      (c.jwtId ≠ [] → ¬ s.records.Holds s.now c.jwtId ∧
        (g.handled r s).2.Guards c.jwtId (s.replays.endOf s.now expiry)) := by
  rcases g.handled_cases r s with ⟨f, s', -, e, -⟩ | ⟨c, s', log, hc, e, -⟩
  · rw [e] at h
    cases h
  · obtain ⟨hclaimed, expiry, hr, hm⟩ := of_clear_gives hs.faithful hc
    refine ⟨c, expiry, hclaimed, hr, fun hj => ?_⟩
    rcases hm with ⟨hj', -⟩ | ⟨-, hm⟩
    · exact absurd hj' hj
    · rw [e]
      exact ⟨hm.fresh hs.distinct, hm.guards hs⟩

end Steps

theorem Specimen.sound_site : site.Sound := ⟨List.nodup_nil, fun h => by cases h⟩

end AssertionGrant
