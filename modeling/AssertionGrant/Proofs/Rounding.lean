import AssertionGrant.Number.Binary64
import Mathlib.Tactic.Ring
import Mathlib.Tactic.Zify

/-! Rounding to double precision is off by half the distance of neighbouring values at most. A span
of less than 2³³ seconds keeps its microseconds that way: no whole number of seconds below the span
reaches what the span is rounded to. Of a longer span the part beyond the whole seconds is kept exactly
if it is more than half the distance of the values there. Rounding also never passes a representable
value, so a span of up to 2⁵³ seconds is not rounded beyond the whole seconds that hold it. -/

namespace AssertionGrant

theorem roundedQuotient_bounds {d : Nat} (hd : 0 < d) (n : Nat) :
    2 * n ≤ 2 * (roundedQuotient n d * d) + d ∧ 2 * (roundedQuotient n d * d) ≤ 2 * n + d := by
  have hn := Nat.div_add_mod' n d
  have hr := Nat.mod_lt n hd
  have hs : (n / d + 1) * d = n / d * d + d := Nat.succ_mul _ _
  unfold roundedQuotient
  dsimp only
  split
  · omega
  · split
    · rw [hs]
      omega
    · split
      · omega
      · rw [hs]
        omega

theorem roundedQuotient_le {n d k : Nat} (hd : 0 < d) (h : n ≤ k * d) :
    roundedQuotient n d ≤ k := by
  have hn := Nat.div_add_mod' n d
  have hq : n / d ≤ k := Nat.div_le_of_le_mul (by rwa [Nat.mul_comm])
  have hnext (hr : n % d ≠ 0) : n / d + 1 ≤ k := by
    by_contra hlt
    have hk : n / d = k := by omega
    rw [hk] at hn
    omega
  unfold roundedQuotient
  dsimp only
  split
  · exact hq
  · split
    · exact hnext (by omega)
    · split
      · exact hq
      · exact hnext (by omega)

theorem lt_roundedQuotient_iff {m x d : Nat} (hd : 0 < d) (hne : 2 * x ≠ d) :
    m ≤ roundedQuotient (m * d + x) d ∧ (m < roundedQuotient (m * d + x) d ↔ d < 2 * x) := by
  obtain ⟨hlow, hhigh⟩ := roundedQuotient_bounds hd (m * d + x)
  generalize roundedQuotient (m * d + x) d = k at *
  have hle : m ≤ k := by
    by_contra hlt
    have : (k + 1) * d ≤ m * d := Nat.mul_le_mul_right d (by omega)
    rw [Nat.succ_mul] at this
    omega
  refine ⟨hle, fun hlt => ?_, fun hx => ?_⟩
  · have : (m + 1) * d ≤ k * d := Nat.mul_le_mul_right d hlt
    rw [Nat.succ_mul] at this
    omega
  · by_contra hk
    have : k * d ≤ m * d := Nat.mul_le_mul_right d (by omega)
    omega

namespace Binary64

theorem unit_eq {a b : Nat} (h : a + b = 1074) : unit = 2 ^ a * 2 ^ b := by
  unfold unit
  rw [← h, Nat.pow_eq, Nat.pow_add]

theorem unit_pos : 0 < unit := by
  have pos {a b : Nat} (h : a + b = 1074) : 0 < unit := by
    rw [unit_eq h]
    exact Nat.mul_pos (Nat.two_pow_pos a) (Nat.two_pow_pos b)
  exact pos (Nat.add_zero 1074)

theorem bound_eq {a b : Nat} (hb : 0 + b = 1074) (ha : a + b = 2098) : bound = 2 ^ a * unit := by
  rw [unit_eq hb]
  unfold bound
  rw [← ha, Nat.pow_eq, Nat.pow_add, Nat.pow_zero, Nat.one_mul]

theorem spacing_pos (u : Nat) : 0 < spacing u := Nat.pow_pos (by decide)

theorem spacing_le {u m k : Nat} (h : u < 2 ^ m) (hm : m ≤ k + 53) : spacing u ≤ 2 ^ k := by
  refine Nat.pow_le_pow_right (by decide) ?_
  by_cases hu : u = 0
  · subst hu
    simp
  · have := (Nat.log2_lt hu).mpr h
    omega

theorem nearestUnits_bounds {d : Nat} (hd : 0 < d) (n : Nat) :
    2 * n ≤ 2 * (nearestUnits n d * d) + d * spacing (n / d) ∧
      2 * (nearestUnits n d * d) ≤ 2 * n + d * spacing (n / d) := by
  have h := roundedQuotient_bounds (Nat.mul_pos hd (spacing_pos (n / d))) n
  have e : nearestUnits n d * d =
      roundedQuotient n (d * spacing (n / d)) * (d * spacing (n / d)) := by
    unfold nearestUnits
    ring
  rwa [e]

theorem le_ceil_mul_unit {u : Nat} {k : Int} (h : (finite false u).ceil? = some k) :
    (u : Int) ≤ k * unit := by
  have hu := Nat.div_add_mod' u unit
  have hs : (u / unit + 1) * unit = u / unit * unit + unit := Nat.succ_mul _ _
  have hm := Nat.mod_lt u unit_pos
  unfold ceil? at h
  obtain rfl := Option.some.inj h
  generalize unit = w at *
  simp only [Bool.false_eq_true, if_false]
  split
  · norm_cast
    omega
  · norm_cast
    omega

section Seconds

/-- Below `2 ^ a` seconds neighbouring values are at most `2 ^ (a - 53)` seconds apart. -/
theorem exists_halfStep {a c : Nat} (hc : a + c = 54) :
    ∃ h, unit = 2 ^ c * h ∧ ∀ u < 2 ^ a * unit, spacing u ≤ 2 * h := by
  have step {b : Nat} (hb : c + b = 1074) :
      unit = 2 ^ c * 2 ^ b ∧ ∀ u < 2 ^ a * unit, spacing u ≤ 2 * 2 ^ b := by
    refine ⟨unit_eq hb, fun u hu => ?_⟩
    rw [unit_eq hb, ← Nat.pow_add, ← Nat.pow_add] at hu
    rw [← Nat.pow_succ']
    exact spacing_le hu (by omega)
  exact ⟨_, step (b := 1074 - c) (by omega)⟩

theorem lt_bound {u : Nat} (h : u < 2 ^ 34 * unit) : u < bound := by
  have step {a b : Nat} (hb : 0 + b = 1074) (ha : a + b = 2098) : u < bound := by
    rw [bound_eq hb ha]
    refine Nat.lt_of_lt_of_le h (Nat.mul_le_mul_right _ ?_)
    exact Nat.pow_le_pow_right (by decide) (by omega)
  exact step (a := 1024) (b := 1074) rfl rfl

theorem exists_ceil_of_ratio {p : Nat} (h : p < 2 ^ 33 * 1000000) :
    ∃ k : Int, (ofRatio p 1000000).ceil? = some k ∧ (p : Int) ≤ k * 1000000 := by
  have hq : p * unit / 1000000 < 2 ^ 33 * unit := by
    refine Nat.div_lt_of_lt_mul ?_
    calc p * unit < 2 ^ 33 * 1000000 * unit := Nat.mul_lt_mul_of_pos_right h unit_pos
      _ = 1000000 * (2 ^ 33 * unit) := by ring
  obtain ⟨half, hunit, hspacing⟩ := exists_halfStep (a := 33) (c := 21) rfl
  have hs := hspacing _ hq
  obtain ⟨hlow, hhigh⟩ := nearestUnits_bounds (d := 1000000) (by decide) (p * unit)
  have hratio : ofRatio p 1000000 = ofUnits false (p * unit) 1000000 := rfl
  rw [hratio]
  unfold ofUnits
  generalize nearestUnits (p * unit) 1000000 = u at *
  generalize spacing (p * unit / 1000000) = w at *
  have hu : u < bound := by
    refine lt_bound ?_
    have := Nat.mul_lt_mul_of_pos_right h unit_pos
    omega
  dsimp only
  rw [if_neg (Nat.not_le.mpr hu)]
  obtain ⟨k, hk⟩ : ∃ k, (finite false u).ceil? = some k := ⟨_, rfl⟩
  refine ⟨k, hk, ?_⟩
  have hceil := le_ceil_mul_unit hk
  by_contra hlt
  -- A whole second that falls short of the span falls short by a microsecond at least, which is
  -- more than the rounding can lose.
  have hgap : (k * 1000000 + 1) * unit ≤ p * unit :=
    Int.mul_le_mul_of_nonneg_right (by omega) (Int.natCast_nonneg _)
  have hsplit : (k * 1000000 + 1) * (unit : Int) = k * unit * 1000000 + unit := by ring
  have hpos := unit_pos
  zify at hlow hunit hs hpos
  rw [hsplit] at hgap
  omega

theorem spacing_dvd_unit {u : Nat} (h : u < 2 ^ 53 * unit) : spacing u ∣ unit := by
  have step {b : Nat} (hb : 0 + b = 1074) : u.log2 - 52 ≤ 1074 := by
    rw [unit_eq hb, Nat.pow_zero, Nat.one_mul, ← Nat.pow_add] at h
    by_cases hu : u = 0
    · subst hu
      simp
    · have := (Nat.log2_lt hu).mpr h
      omega
  have hexponent := step (b := 1074) rfl
  exact ⟨_, unit_eq (Nat.add_sub_of_le hexponent)⟩

theorem nearestUnits_le {d n k : Nat} (hd : 0 < d) (hk : k < 2 ^ 53) (h : n ≤ k * unit * d) :
    nearestUnits n d ≤ k * unit := by
  have hq : n / d ≤ k * unit := Nat.div_le_of_le_mul (by rwa [Nat.mul_comm])
  have hlt : n / d < 2 ^ 53 * unit :=
    Nat.lt_of_le_of_lt hq (Nat.mul_lt_mul_of_pos_right hk unit_pos)
  obtain ⟨m, hm⟩ := spacing_dvd_unit hlt
  have hs := spacing_pos (n / d)
  have hround : roundedQuotient n (d * spacing (n / d)) ≤ k * m := by
    refine roundedQuotient_le (Nat.mul_pos hd hs) ?_
    calc n ≤ k * unit * d := h
      _ = k * m * (d * spacing (n / d)) := by rw [hm]; ring
  unfold nearestUnits
  dsimp only
  calc roundedQuotient n (d * spacing (n / d)) * spacing (n / d) ≤ k * m * spacing (n / d) :=
        Nat.mul_le_mul_right _ hround
    _ = k * unit := by rw [hm]; ring

theorem exists_ceil_le {u k : Nat} (h : u ≤ k * unit) :
    ∃ c : Int, (finite false u).ceil? = some c ∧ c ≤ k := by
  have hdiv := Nat.div_add_mod' u unit
  have hwhole : u / unit ≤ k := Nat.div_le_of_le_mul (by rwa [Nat.mul_comm])
  refine ⟨_, rfl, ?_⟩
  simp only [Bool.false_eq_true, if_false]
  split
  · exact_mod_cast hwhole
  · next hrest =>
    have hlt : u / unit ≠ k := by
      intro hk'
      rw [hk'] at hdiv
      omega
    have : u / unit + 1 ≤ k := by omega
    exact_mod_cast this

theorem ofRatio_eq_finite {p k : Nat} (hk : k < 2 ^ 53) (h : p ≤ k * 1000000) :
    ofRatio p 1000000 = finite false (nearestUnits (p * unit) 1000000) ∧
      nearestUnits (p * unit) 1000000 ≤ k * unit := by
  have hu : nearestUnits (p * unit) 1000000 ≤ k * unit := by
    refine nearestUnits_le (by decide) hk ?_
    calc p * unit ≤ k * 1000000 * unit := Nat.mul_le_mul_right _ h
      _ = k * unit * 1000000 := by ring
  refine ⟨?_, hu⟩
  have hratio : ofRatio p 1000000 = ofUnits false (p * unit) 1000000 := rfl
  rw [hratio]
  unfold ofUnits
  generalize nearestUnits (p * unit) 1000000 = u at *
  have hbound : u < bound := by
    have step {a b : Nat} (hb : 0 + b = 1074) (ha : a + b = 2098) (h53 : 53 ≤ a) :
        u < bound := by
      rw [bound_eq hb ha]
      refine Nat.lt_of_le_of_lt hu (Nat.mul_lt_mul_of_pos_right ?_ unit_pos)
      exact Nat.lt_of_lt_of_le hk (Nat.pow_le_pow_right (by decide) h53)
    exact step (a := 1024) (b := 1074) rfl rfl (by decide)
  exact if_neg (Nat.not_le.mpr hbound)

theorem exists_ceil_le_of_ratio {p k : Nat} (hk : k < 2 ^ 53) (h : p ≤ k * 1000000) :
    ∃ c : Int, (ofRatio p 1000000).ceil? = some c ∧ c ≤ k := by
  obtain ⟨hfinite, hu⟩ := ofRatio_eq_finite hk h
  rw [hfinite]
  exact exists_ceil_le hu

theorem unit_eq_mul_spacing {e q u : Nat} (he : e ≤ 52) (hlow : 2 ^ e ≤ q) (hhigh : q < 2 ^ (e + 1))
    (hu : q * unit ≤ u) (hu' : u < (q + 1) * unit) : unit = 2 ^ (52 - e) * spacing u := by
  have step {b : Nat} (hb : 0 + b = 1074) : unit = 2 ^ (52 - e) * spacing u := by
    have hexponent : 52 - e + (e + b - 52) = b := by omega
    have hunit : unit = 2 ^ b := by rw [unit_eq hb, Nat.pow_zero, Nat.one_mul]
    rw [hunit] at hu hu'
    have hbelow : 2 ^ (e + b) ≤ u := by
      calc 2 ^ (e + b) = 2 ^ e * 2 ^ b := Nat.pow_add 2 e b
        _ ≤ q * 2 ^ b := Nat.mul_le_mul_right _ hlow
        _ ≤ u := hu
    have habove : u < 2 ^ (e + b + 1) := by
      calc u < (q + 1) * 2 ^ b := hu'
        _ ≤ 2 ^ (e + 1) * 2 ^ b := Nat.mul_le_mul_right _ hhigh
        _ = 2 ^ (e + b + 1) := by rw [← Nat.pow_add, Nat.add_right_comm]
    have hne : u ≠ 0 := Nat.ne_of_gt (Nat.lt_of_lt_of_le (Nat.two_pow_pos _) hbelow)
    have hlog : u.log2 = e + b := (Nat.log2_eq_iff hne).mpr ⟨hbelow, habove⟩
    unfold spacing
    rw [hlog, Nat.pow_eq, ← Nat.pow_add, hexponent, hunit]
  exact step (b := 1074) rfl

theorem ne_half_step {e r : Nat} (he : e < 47) : r * 2 ^ (53 - e) ≠ 1000000 := by
  intro h
  have hdvd : 2 ^ 7 ∣ 1000000 :=
    (pow_dvd_pow 2 (by omega)).trans (Dvd.intro_left r h)
  exact absurd hdvd (by decide)

/-- Seconds in double precision lose the microseconds beyond the whole ones exactly if these are
less than half the distance of neighbouring values. -/
theorem lt_nearestUnits_iff {q r e : Nat} (he : e < 47) (hlow : 2 ^ e ≤ q) (hhigh : q < 2 ^ (e + 1))
    (hr : r < 1000000) :
    q * unit ≤ nearestUnits ((q * 1000000 + r) * unit) 1000000 ∧
      (q * unit < nearestUnits ((q * 1000000 + r) * unit) 1000000 ↔
        1000000 * 2 ^ e < r * 2 ^ 53) := by
  have hhalf : 2 ^ (53 - e) = 2 * 2 ^ (52 - e) := by
    rw [← Nat.pow_succ', show 53 - e = (52 - e).succ by omega]
  have hscale : 2 ^ 53 = 2 ^ (53 - e) * 2 ^ e := by
    rw [← Nat.pow_add, Nat.sub_add_cancel (by omega)]
  have htie := ne_half_step (r := r) he
  rw [hscale, ← Nat.mul_assoc, Nat.mul_lt_mul_right (Nat.two_pow_pos e)]
  have hle : q * unit ≤ (q * 1000000 + r) * unit / 1000000 := by
    rw [Nat.le_div_iff_mul_le (by decide)]
    calc q * unit * 1000000 = q * 1000000 * unit := by ring
      _ ≤ (q * 1000000 + r) * unit := Nat.mul_le_mul_right _ (Nat.le_add_right _ _)
  have hlt : (q * 1000000 + r) * unit / 1000000 < (q + 1) * unit := by
    rw [Nat.div_lt_iff_lt_mul (by decide)]
    calc (q * 1000000 + r) * unit < (q + 1) * 1000000 * unit :=
          Nat.mul_lt_mul_of_pos_right (by omega) unit_pos
      _ = (q + 1) * unit * 1000000 := by ring
  have hunit := unit_eq_mul_spacing (by omega) hlow hhigh hle hlt
  unfold nearestUnits
  dsimp only
  have hs := spacing_pos ((q * 1000000 + r) * unit / 1000000)
  generalize spacing ((q * 1000000 + r) * unit / 1000000) = s at *
  have hwhole : q * unit = q * 2 ^ (52 - e) * s := by rw [hunit]; ring
  have hsplit : (q * 1000000 + r) * unit =
      q * 2 ^ (52 - e) * (1000000 * s) + r * 2 ^ (52 - e) * s := by rw [hunit]; ring
  have hne : 2 * (r * 2 ^ (52 - e) * s) ≠ 1000000 * s := by
    intro h
    refine htie (Nat.eq_of_mul_eq_mul_right hs ?_)
    rw [← h, hhalf]
    ring
  rw [hwhole, hsplit]
  obtain ⟨hge, hiff⟩ := lt_roundedQuotient_iff (m := q * 2 ^ (52 - e)) (by omega) hne
  refine ⟨Nat.mul_le_mul_right s hge, ?_⟩
  rw [Nat.mul_lt_mul_right hs, hiff, hhalf]
  rw [show 2 * (r * 2 ^ (52 - e) * s) = r * (2 * 2 ^ (52 - e)) * s by ring,
    Nat.mul_lt_mul_right hs]

theorem lt_ceil_of_ratio_iff {q r e : Nat} (he : e < 47) (hlow : 2 ^ e ≤ q) (hhigh : q < 2 ^ (e + 1))
    (hr : r < 1000000) : ∃ k : Int, (ofRatio (q * 1000000 + r : Nat) 1000000).ceil? = some k ∧
      (q : Int) ≤ k ∧ ((q : Int) < k ↔ 1000000 * 2 ^ e < r * 2 ^ 53) := by
  have hsmall : q + 1 < 2 ^ 53 := by
    have : 2 ^ (e + 1) ≤ 2 ^ 52 := Nat.pow_le_pow_right (by decide) (by omega)
    omega
  obtain ⟨hge, hiff⟩ := lt_nearestUnits_iff he hlow hhigh hr
  obtain ⟨hfinite, -⟩ := ofRatio_eq_finite (p := q * 1000000 + r) hsmall (by omega)
  rw [hfinite, ← hiff]
  generalize nearestUnits ((q * 1000000 + r) * unit) 1000000 = u at *
  obtain ⟨k, hk⟩ : ∃ k, (finite false u).ceil? = some k := ⟨_, rfl⟩
  have hceil := le_ceil_mul_unit hk
  have hpos : (0 : Int) < unit := Int.natCast_pos.mpr unit_pos
  have hle (h : u ≤ q * unit) : k ≤ q := by
    obtain ⟨c, hc, hcq⟩ := exists_ceil_le h
    rwa [← Option.some.inj (hk.symm.trans hc)] at hcq
  refine ⟨k, hk, ?_, fun h => ?_, fun h => ?_⟩
  · refine Int.le_of_mul_le_mul_right (a := unit) (Int.le_trans ?_ hceil) hpos
    exact_mod_cast hge
  · by_contra hu
    have := hle (Nat.le_of_not_lt hu)
    omega
  · refine Int.lt_of_mul_lt_mul_right (a := unit) (Int.lt_of_lt_of_le ?_ hceil) (Int.le_of_lt hpos)
    exact_mod_cast h

end Seconds

theorem natAbs_truncate_lt (negative : Bool) (n d : Nat) :
    ((ofUnits negative n d).truncate?.getD 0).natAbs < 2 ^ 1024 := by
  have step {a b : Nat} (hb : 0 + b = 1074) (ha : a + b = 2098) :
      ((ofUnits negative n d).truncate?.getD 0).natAbs < 2 ^ a := by
    unfold ofUnits
    dsimp only
    split
    · exact Nat.two_pow_pos a
    · next h =>
      have hlt : nearestUnits n d / unit < 2 ^ a := by
        rw [Nat.div_lt_iff_lt_mul unit_pos, ← bound_eq hb ha]
        exact Nat.lt_of_not_le h
      cases negative
      · exact hlt
      · change (-((nearestUnits n d / unit : Nat) : Int)).natAbs < 2 ^ a
        rwa [Int.natAbs_neg, Int.natAbs_natCast]
  exact step (b := 1074) rfl rfl

end Binary64
end AssertionGrant
