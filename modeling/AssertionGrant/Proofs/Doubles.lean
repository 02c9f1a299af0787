import AssertionGrant.Proofs.Digits
import AssertionGrant.Proofs.Rounding

/-! The digits of a double spell the double. A candidate for the shortest digits is taken only if it
reads back, all digits spell the exact value, and zeros at the end change nothing but the
exponent. -/

namespace AssertionGrant

theorem roundedQuotient_mul_self {d : Nat} (hd : 0 < d) (m : Nat) :
    roundedQuotient (m * d) d = m := by
  unfold roundedQuotient
  dsimp only
  rw [Nat.mul_mod_left, Nat.mul_div_cancel m hd, if_pos (by omega)]

theorem roundedQuotient_mul {n d m : Nat} (hm : 0 < m) :
    roundedQuotient (n * m) (d * m) = roundedQuotient n d := by
  unfold roundedQuotient
  dsimp only
  rw [Nat.mul_div_mul_right n d hm, Nat.mul_mod_mul_right]
  have h₁ : 2 * (n % d * m) < d * m ↔ 2 * (n % d) < d := by
    rw [← Nat.mul_assoc, Nat.mul_lt_mul_right hm]
  have h₂ : d * m < 2 * (n % d * m) ↔ d < 2 * (n % d) := by
    rw [← Nat.mul_assoc, Nat.mul_lt_mul_right hm]
  simp only [h₁, h₂]

namespace Binary64

def Representable (u : Nat) : Prop := spacing u ∣ u ∧ u < bound

def Proper : Binary64 → Prop
  | .finite _ u => Representable u
  | _ => True

variable {negative : Bool} {u n d : Nat}

section Rounding

theorem nearestUnits_mul {m : Nat} (hm : 0 < m) :
    nearestUnits (n * m) (d * m) = nearestUnits n d := by
  unfold nearestUnits
  dsimp only
  rw [Nat.mul_div_mul_right n d hm]
  have e : d * m * spacing (n / d) = d * spacing (n / d) * m := by ring
  rw [e, roundedQuotient_mul hm]

theorem ofUnits_congr {n' d' : Nat} (hd : 0 < d) (hd' : 0 < d') (h : n * d' = n' * d) :
    ofUnits negative n d = ofUnits negative n' d' := by
  have e : nearestUnits n d = nearestUnits n' d' := by
    rw [← nearestUnits_mul hd', h, Nat.mul_comm d d', nearestUnits_mul hd]
  unfold ofUnits
  rw [e]

theorem ofUnits_exact (h : Representable u) (hd : 0 < d) :
    ofUnits negative (u * d) d = .finite negative u := by
  obtain ⟨⟨m, hm⟩, hb⟩ := h
  have hs := spacing_pos u
  have e : nearestUnits (u * d) d = u := by
    unfold nearestUnits
    dsimp only
    rw [Nat.mul_div_cancel u hd]
    generalize spacing u = t at *
    subst hm
    rw [show t * m * d = m * (d * t) by ring, roundedQuotient_mul_self (Nat.mul_pos hd hs),
      Nat.mul_comm]
  unfold ofUnits
  dsimp only
  rw [e, if_neg (Nat.not_le.mpr hb)]

theorem ofUnits_sign (h : ofUnits false n d = .finite false u) :
    ofUnits negative n d = .finite negative u := by
  unfold ofUnits at h ⊢
  dsimp only at h ⊢
  split at h
  · cases h
  · next hb =>
    rw [if_neg hb, (Binary64.finite.inj h).2]

end Rounding

section Decimal

theorem toDigits_mul_pow (hn : 0 < n) (k : Nat) :
    Nat.toDigits 10 (n * 10 ^ k) = Nat.toDigits 10 n ++ List.replicate k '0' := by
  induction k with
  | zero => rw [Nat.pow_zero, Nat.mul_one, List.replicate_zero, List.append_nil]
  | succ k ih =>
    have hpos : 0 < n * 10 ^ k := Nat.mul_pos hn (Nat.pow_pos (by decide))
    have e : n * 10 ^ (k + 1) = 10 * (n * 10 ^ k) + 0 := by ring
    rw [e, ← Nat.toDigits_append_toDigits (by decide) hpos (by decide), ih, Nat.toDigits_zero,
      List.append_assoc, List.replicate_succ']

theorem ofDecimal_eq (hn : n ≠ 0) (e : Int) :
    ofDecimal negative n e =
      if 400 < (Nat.toDigits 10 n).length + e then .infinite negative
      else if (Nat.toDigits 10 n).length + e < -400 then .finite negative 0
      else ofUnits negative (n * 10 ^ e.toNat * unit) (10 ^ (-e).toNat) := by
  unfold ofDecimal
  rw [if_neg hn]
  dsimp only
  split
  · rfl
  split
  · rfl
  split
  · next h =>
    rw [show (-e).toNat = 0 by omega]
    rfl
  · next h =>
    rw [show e.toNat = 0 by omega, Nat.pow_zero, Nat.mul_one]
    rfl

theorem ofDecimal_mul_pow (n k : Nat) (e : Int) :
    ofDecimal negative (n * 10 ^ k) (e - k) = ofDecimal negative n e := by
  have hk : 0 < 10 ^ k := Nat.pow_pos (by decide)
  rcases Nat.eq_zero_or_pos n with rfl | hn
  · rw [Nat.zero_mul]
    rfl
  rw [ofDecimal_eq (Nat.mul_pos hn hk).ne', ofDecimal_eq hn.ne', toDigits_mul_pow hn,
    List.length_append, List.length_replicate]
  have hl : (((Nat.toDigits 10 n).length + k : Nat) : Int) + (e - k) =
      (Nat.toDigits 10 n).length + e := by omega
  -- The exponents may have different signs; multiplied out, the two ratios are the same.
  have hu : ofUnits negative (n * 10 ^ k * 10 ^ (e - k).toNat * unit) (10 ^ (-(e - k)).toNat) =
      ofUnits negative (n * 10 ^ e.toNat * unit) (10 ^ (-e).toNat) := by
    refine ofUnits_congr (Nat.pow_pos (by decide)) (Nat.pow_pos (by decide)) ?_
    have hexp : k + (e - k).toNat + (-e).toNat = e.toNat + (-(e - k)).toNat := by omega
    calc n * 10 ^ k * 10 ^ (e - k).toNat * unit * 10 ^ (-e).toNat
        = n * unit * 10 ^ (k + (e - k).toNat + (-e).toNat) := by
          rw [Nat.pow_add, Nat.pow_add]
          ring
      _ = n * 10 ^ e.toNat * unit * 10 ^ (-(e - k)).toNat := by
          rw [hexp, Nat.pow_add]
          ring
  rw [hl, hu]

theorem ofDecimal_sign {e : Int} (h : ofDecimal false n e = .finite false u) :
    ofDecimal negative n e = .finite negative u := by
  by_cases hn : n = 0
  · subst hn
    obtain rfl : 0 = u := (Binary64.finite.inj h).2
    rfl
  rw [ofDecimal_eq hn] at h ⊢
  split at h
  · cases h
  split at h
  · next h₁ h₂ =>
    obtain rfl : 0 = u := (Binary64.finite.inj h).2
    rw [if_neg h₁, if_pos h₂]
  · next h₁ h₂ =>
    rw [if_neg h₁, if_neg h₂]
    exact ofUnits_sign h

theorem ofDecimal_allDigits (h : Representable u) (hu : 0 < u) :
    ofDecimal false (allDigits u).1 (allDigits u).2 = .finite false u := by
  have hunit : Nat.pow 5 1074 * unit = Nat.pow 10 1074 := by decide +kernel
  have hlow : ¬ Nat.pow 5 1074 < 10 ^ 674 := by decide +kernel
  have hhigh : bound * Nat.pow 5 1074 < 10 ^ 1474 := by decide +kernel
  have hpos : 0 < Nat.pow 5 1074 := by decide +kernel
  unfold allDigits
  dsimp only
  -- From here on the power is a name, so that no step computes with its digits.
  generalize hp : Nat.pow 5 1074 = p at *
  have hle : p ≤ u * p := Nat.le_mul_of_pos_left p hu
  have hlt : u * p < 10 ^ 1474 := Nat.lt_trans (Nat.mul_lt_mul_of_pos_right h.2 hpos) hhigh
  have h₁ := (Nat.length_toDigits_le_iff (b := 10) (by decide) (by decide)).mpr hlt
  have h₂ := (Nat.length_toDigits_le_iff (b := 10) (n := u * p) (k := 674) (by decide)
    (by decide)).not.mpr (by omega)
  rw [ofDecimal_eq (Nat.mul_pos hu hpos).ne', if_neg (by omega), if_neg (by omega)]
  have e : u * p * 10 ^ (-1074 : Int).toNat * unit = u * 10 ^ (- -1074 : Int).toNat := by
    rw [show (-1074 : Int).toNat = 0 from rfl, Nat.pow_zero, Nat.mul_one, Nat.mul_assoc, hunit]
    rfl
  rw [e]
  exact ofUnits_exact h (Nat.pow_pos (by decide))

end Decimal

section Shortest

theorem ofDecimal_shortest {digits : Nat} {e : Int} (h : shortest? u = some (digits, e)) :
    ofDecimal false digits e = .finite false u := by
  unfold shortest? at h
  obtain ⟨i, -, h⟩ := List.exists_of_findSome?_eq_some h
  obtain ⟨ds, -, h⟩ := List.exists_of_findSome?_eq_some h
  split at h
  · next hr =>
    obtain ⟨rfl, rfl⟩ := Prod.mk.inj (Option.some.inj h)
    exact hr
  · cases h

theorem exists_trimmed (cs : List Char) :
    ∃ k, cs = (cs.reverse.dropWhile (· == '0')).reverse ++ List.replicate k '0' := by
  have hsplit := List.takeWhile_append_dropWhile (p := (· == '0')) (l := cs.reverse)
  have hzeros : cs.reverse.takeWhile (· == '0') =
      List.replicate (cs.reverse.takeWhile (· == '0')).length '0' := by
    refine List.eq_replicate_iff.mpr ⟨rfl, fun c hc => ?_⟩
    exact eq_of_beq (List.all_eq_true.mp List.all_takeWhile c hc)
  refine ⟨(cs.reverse.takeWhile (· == '0')).length, ?_⟩
  calc cs = (cs.reverse.takeWhile (· == '0') ++ cs.reverse.dropWhile (· == '0')).reverse := by
        rw [hsplit, List.reverse_reverse]
    _ = _ := by
        rw [List.reverse_append, hzeros, List.reverse_replicate, List.length_replicate]

structure Spells (t : Text) (point : Int) (u : Nat) : Prop where
  digits : ∀ l ∈ t, Json.isAsciiDigit l = true
  nonempty : t ≠ []
  head : t.head? ≠ some (.char '0')
  reads : ∀ negative, ofDecimal negative (Numeral.value t) (point - t.length) = .finite negative u

theorem spells_decimalDigits (h : Representable u) (hu : 0 < u) :
    Spells ((decimalDigits u).1.map .char) (decimalDigits u).2 u := by
  obtain ⟨ds, e, hds, hread⟩ : ∃ ds e, (shortest? u).getD (allDigits u) = (ds, e) ∧
      ofDecimal false ds e = .finite false u := by
    cases hs : shortest? u with
    | none => exact ⟨_, _, rfl, ofDecimal_allDigits h hu⟩
    | some p => exact ⟨p.1, p.2, rfl, ofDecimal_shortest hs⟩
  have hpos : 0 < ds := by
    refine Nat.pos_of_ne_zero fun h0 => ?_
    subst h0
    have : 0 = u := (Binary64.finite.inj hread).2
    omega
  unfold decimalDigits
  rw [hds]
  dsimp only
  obtain ⟨k, hk⟩ := exists_trimmed (Nat.toDigits 10 ds)
  have hlength := congrArg List.length hk
  rw [List.length_append, List.length_replicate] at hlength
  generalize ((Nat.toDigits 10 ds).reverse.dropWhile (· == '0')).reverse = cs at *
  have hk : Numeral.digits ds = cs.map .char ++ Numeral.noughts k := by
    rw [Numeral.digits, hk, List.map_append, List.map_replicate]
  have hmap : (cs.map Letter.char).length = cs.length := List.length_map _
  rw [← hmap] at hlength
  generalize cs.map Letter.char = t at *
  have hdigits : ∀ l ∈ t, Json.isAsciiDigit l = true := fun l hl =>
    Numeral.isAsciiDigit_of_mem_digits (hk ▸ List.mem_append_left _ hl)
  have hvalue : ds = Numeral.value t * 10 ^ k := by
    rw [← Numeral.value_append_noughts hdigits, ← hk, Numeral.value_digits]
  have hne : t ≠ [] := by
    rintro rfl
    rw [hvalue] at hpos
    simp only [Numeral.value, List.foldl_nil, Nat.zero_mul, Nat.lt_irrefl] at hpos
  refine ⟨hdigits, hne, ?_, fun negative => ?_⟩
  · have := Numeral.head_digits_ne hpos
    obtain ⟨l, t, rfl⟩ := List.exists_cons_of_ne_nil hne
    rwa [hk] at this
  · have e' : ((Nat.toDigits 10 ds).length + e : Int) - t.length = e + k := by omega
    rw [e', ← ofDecimal_mul_pow _ k, ← hvalue, Int.add_sub_cancel]
    exact ofDecimal_sign hread

end Shortest

end Binary64
end AssertionGrant
