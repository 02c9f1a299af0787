import AssertionGrant.Issuer
import AssertionGrant.Proofs.Rounding

/-! Whole seconds. Up to 2³⁴ seconds a count of microseconds loses its fraction and nothing else when
its seconds, in double precision, are cut to whole ones. -/

namespace AssertionGrant

theorem le_roundedQuotient {n d k : Nat} (hd : 0 < d) (h : k * d ≤ n) : k ≤ roundedQuotient n d := by
  have hq : k ≤ n / d := (Nat.le_div_iff_mul_le hd).mpr h
  unfold roundedQuotient
  dsimp only
  split
  · exact hq
  · split
    · exact Nat.le_succ_of_le hq
    · split
      · exact hq
      · exact Nat.le_succ_of_le hq

namespace Binary64

theorem le_nearestUnits {d n k : Nat} (hd : 0 < d) (hn : n / d < 2 ^ 53 * unit)
    (h : k * unit * d ≤ n) : k * unit ≤ nearestUnits n d := by
  obtain ⟨m, hm⟩ := spacing_dvd_unit hn
  have hs := spacing_pos (n / d)
  have hround : k * m ≤ roundedQuotient n (d * spacing (n / d)) := by
    refine le_roundedQuotient (Nat.mul_pos hd hs) ?_
    calc k * m * (d * spacing (n / d)) = k * (spacing (n / d) * m) * d := by ring
      _ ≤ n := by rwa [← hm]
  unfold nearestUnits
  dsimp only
  calc k * unit = k * (spacing (n / d) * m) := by rw [← hm]
    _ = k * m * spacing (n / d) := by ring
    _ ≤ roundedQuotient n (d * spacing (n / d)) * spacing (n / d) := Nat.mul_le_mul_right _ hround

theorem nearestUnits_lt {p k : Nat} (hk : k ≤ 2 ^ 34) (hp : p < k * 1000000) :
    nearestUnits (p * unit) 1000000 < k * unit := by
  obtain ⟨half, hunit, hspacing⟩ := exists_halfStep (a := 34) (c := 20) rfl
  have hpos := unit_pos
  have hq : p * unit / 1000000 < 2 ^ 34 * unit := by
    rw [Nat.div_lt_iff_lt_mul (by decide)]
    calc p * unit < k * 1000000 * unit := Nat.mul_lt_mul_of_pos_right hp hpos
      _ ≤ 2 ^ 34 * 1000000 * unit := Nat.mul_le_mul_right _ (Nat.mul_le_mul_right _ hk)
      _ = 2 ^ 34 * unit * 1000000 := by ring
  have hs := hspacing _ hq
  obtain ⟨-, hhigh⟩ := nearestUnits_bounds (d := 1000000) (by decide) (p * unit)
  have hgap : (p + 1) * unit ≤ k * unit * 1000000 := by
    calc (p + 1) * unit ≤ k * 1000000 * unit := Nat.mul_le_mul_right _ hp
      _ = k * unit * 1000000 := by ring
  rw [Nat.add_mul, Nat.one_mul] at hgap
  generalize nearestUnits (p * unit) 1000000 = u at *
  generalize spacing (p * unit / 1000000) = w at *
  omega

theorem nearestUnits_div {p : Nat} (h : p ≤ 2 ^ 34 * 1000000) :
    nearestUnits (p * unit) 1000000 / unit = p / 1000000 := by
  have hpos := unit_pos
  have hsmall : p * unit / 1000000 < 2 ^ 53 * unit := by
    rw [Nat.div_lt_iff_lt_mul (by decide)]
    calc p * unit ≤ 2 ^ 34 * 1000000 * unit := Nat.mul_le_mul_right _ h
      _ < 2 ^ 53 * 1000000 * unit := Nat.mul_lt_mul_of_pos_right (by decide) hpos
      _ = 2 ^ 53 * unit * 1000000 := by ring
  have hlow : p / 1000000 * unit ≤ nearestUnits (p * unit) 1000000 := by
    refine le_nearestUnits (by decide) hsmall ?_
    calc p / 1000000 * unit * 1000000 = p / 1000000 * 1000000 * unit := by ring
      _ ≤ p * unit := Nat.mul_le_mul_right _ (Nat.div_mul_le_self p 1000000)
  have hhigh : nearestUnits (p * unit) 1000000 < (p / 1000000 + 1) * unit := by
    by_cases hlast : p = 2 ^ 34 * 1000000
    · subst hlast
      have hle : nearestUnits (2 ^ 34 * 1000000 * unit) 1000000 ≤ 2 ^ 34 * unit :=
        nearestUnits_le (by decide) (by decide) (Nat.le_of_eq (by ring))
      exact Nat.lt_of_le_of_lt hle (Nat.mul_lt_mul_of_pos_right (by decide) hpos)
    · exact nearestUnits_lt (by omega) (by omega)
  rw [Nat.div_eq_iff hpos]
  rw [Nat.add_mul, Nat.one_mul] at hhigh
  omega

theorem truncate_of_ratio {p : Int} (h : p.natAbs ≤ 2 ^ 34 * 1000000) :
    (ofRatio p 1000000).truncate? = some (if p < 0 then -(-p / 1000000) else p / 1000000) := by
  obtain ⟨hfinite, -⟩ := ofRatio_eq_finite (k := 2 ^ 34) (by decide) h
  have hdiv := nearestUnits_div h
  have hratio (q : Int) : ofRatio q 1000000 = ofUnits (decide (q < 0)) (q.natAbs * unit) 1000000 :=
    rfl
  rw [hratio] at hfinite ⊢
  rw [Int.natAbs_natCast] at hfinite
  unfold ofUnits at hfinite ⊢
  generalize nearestUnits (p.natAbs * unit) 1000000 = u at *
  dsimp only at hfinite ⊢
  split at hfinite
  · cases hfinite
  · next hbound =>
    rw [if_neg hbound, truncate?, hdiv]
    simp only [decide_eq_true_eq, Option.some.injEq]
    split <;> omega

end Binary64

namespace Instant

variable {t t' : Instant}

theorem wholeSeconds_eq (hpos : 0 ≤ t.micros) (h : t.micros ≤ 2 ^ 34 * 1000000) :
    t.wholeSeconds = t.micros / 1000000 := by
  unfold wholeSeconds seconds
  rw [Binary64.truncate_of_ratio (by omega), Option.getD_some, if_neg (by omega)]

theorem of_roundToSecond (h : t.roundToSecond? = some t') :
    t'.micros % 1000000 = 0 ∧ 2 * (t.micros - t'.micros) < 1000000 ∧
      2 * (t'.micros - t.micros) ≤ 1000000 := by
  unfold roundToSecond? at h
  dsimp only at h
  split at h
  · split at h
    · obtain rfl := Option.some.inj h
      dsimp only
      omega
    · cases h
  · obtain rfl := Option.some.inj h
    dsimp only
    omega

end Instant

theorem Issuer.secondsLeft_eq {now expiresAt : Instant}
    (h : (expiresAt.micros - now.micros).natAbs ≤ 2 ^ 34 * 1000000) :
    secondsLeft now expiresAt = max 0 ((expiresAt.micros - now.micros) / 1000000) := by
  unfold secondsLeft Span.seconds Instant.since
  rw [Binary64.truncate_of_ratio h, Option.getD_some]
  split
  · omega
  · rfl

end AssertionGrant
