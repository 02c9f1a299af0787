import AssertionGrant.Json.Limits
import AssertionGrant.Proofs.Doubles

/-! The text of a number reads back as the number, wherever nothing stands after it that could
belong to a number. A double has four forms of text: all digits before the point, all digits after
it, digits on both sides, and an exponent. -/

namespace AssertionGrant.Json
open Binary64 Numeral

variable {start rest t whole fraction : Text} {negative : Bool}

def Ended (t : Text) : Prop :=
  ∀ l, t.head? = some l → l = .char ',' ∨ l = .char ']' ∨ l = .char '\x7d'

theorem Ended.noDigit (h : Ended rest) : NoDigit rest := by
  intro l hl
  rcases h l hl with rfl | rfl | rfl <;> rfl

theorem Ended.exponent? (h : Ended rest) : exponent? rest = none := by
  cases rest with
  | nil => rfl
  | cons l rest => rcases h l rfl with rfl | rfl | rfl <;> rfl

def pointed (fraction : Text) : Text :=
  if fraction = [] then [] else .char '.' :: fraction

theorem noDigit_pointed (hr : NoDigit rest) : NoDigit (pointed fraction ++ rest) := by
  unfold pointed
  split
  · exact hr
  · intro l hl
    obtain rfl : .char '.' = l := Option.some.inj hl
    rfl

theorem fractionDigits_pointed (h : ∀ l ∈ fraction, isAsciiDigit l = true) (hr : NoDigit rest)
    (hp : rest.head? ≠ some (.char '.')) :
    fractionDigits (pointed fraction ++ rest) = (fraction, rest) := by
  unfold pointed
  split
  · next he =>
    subst he
    rw [List.nil_append]
    unfold fractionDigits
    split
    · exact absurd rfl hp
    · rfl
  · next hne =>
    obtain ⟨d, ds, rfl⟩ := List.exists_cons_of_ne_nil hne
    have hd := h d List.mem_cons_self
    obtain ⟨h₁, h₂⟩ := takeWhile_digits (fun c hc => h c (List.mem_cons_of_mem _ hc)) hr
    simp only [List.cons_append, fractionDigits, hd, if_true, h₁, h₂]

structure Mantissa (whole fraction : Text) : Prop where
  digits : ∀ l ∈ whole, isAsciiDigit l = true
  nonempty : whole ≠ []
  head : whole = [.char '0'] ∨ whole.head? ≠ some (.char '0')
  after : ∀ l ∈ fraction, isAsciiDigit l = true

def numberOf (start : Text) (negative : Bool) (whole fraction rest : Text) :
    Except Stop (Json × Text) :=
  match exponent? rest, fraction with
  | none, [] =>
    if digitLimit < whole.length then stop (.tooLong whole.length) start
    else .ok (.int (if negative then -(value whole : Int) else value whole), rest)
  | none, _ =>
    .ok (.num (.float (.ofDecimal negative (value (whole ++ fraction))
      (-(fraction.length : Int)))), rest)
  | some (e, rest), _ =>
    .ok (.num (.float (.ofDecimal negative (value (whole ++ fraction))
      (e - (fraction.length : Int)))), rest)

theorem readNumber_mantissa (h : Mantissa whole fraction) (hr : NoDigit rest)
    (hp : rest.head? ≠ some (.char '.')) :
    readNumber start negative (whole ++ (pointed fraction ++ rest)) =
      numberOf start negative whole fraction rest := by
  unfold readNumber
  rw [wholeDigits_append h.digits h.nonempty h.head (noDigit_pointed hr)]
  dsimp only
  rw [if_neg (by simpa using h.nonempty), fractionDigits_pointed h.after hr hp]
  rfl

theorem readNumber_fraction (h : Mantissa whole fraction) (hf : fraction ≠ []) (hr : Ended rest) :
    readNumber start negative (whole ++ .char '.' :: (fraction ++ rest)) =
      .ok (.num (.float (.ofDecimal negative (value (whole ++ fraction))
        (-(fraction.length : Int)))), rest) := by
  have hp : rest.head? ≠ some (.char '.') := fun e => by
    rcases hr (.char '.') e with h | h | h <;> exact absurd h (by decide)
  have e : .char '.' :: (fraction ++ rest) = pointed fraction ++ rest := by
    unfold pointed
    rw [if_neg hf, List.cons_append]
  rw [e, readNumber_mantissa h hr.noDigit hp]
  unfold numberOf
  rw [hr.exponent?]
  cases fraction with
  | nil => exact absurd rfl hf
  | cons c cs => rfl

theorem readNumber_exponent {ds : Text} {down : Bool} (h : Mantissa whole fraction)
    (hds : ∀ l ∈ ds, isAsciiDigit l = true) (hne : ds ≠ []) (hr : Ended rest) :
    readNumber start negative
        (whole ++ (pointed fraction ++ .char 'e' :: .char (if down then '-' else '+') :: (ds ++ rest))) =
      .ok (.num (.float (.ofDecimal negative (value (whole ++ fraction))
        ((if down then -(value ds : Int) else value ds) -
          (fraction.length : Int)))), rest) := by
  have hrun := (takeWhile_digits hds hr.noDigit).1
  have hempty : ds.isEmpty = false := List.isEmpty_eq_false_iff.mpr hne
  have he : exponent? (.char 'e' :: .char (if down then '-' else '+') :: (ds ++ rest)) =
      some (if down then -(value ds : Int) else value ds, rest) := by
    cases down
    all_goals
      simp only [exponent?, signed, Bool.false_eq_true, if_false, if_true, true_or, hrun,
        hempty, List.drop_left]
  rw [readNumber_mantissa h]
  · unfold numberOf
    rw [he]
  · intro l hl
    obtain rfl : .char 'e' = l := Option.some.inj hl
    rfl
  · simp

section Doubles

variable {u : Nat} {point : Int}

theorem readNumber_small (h : Spells t point u) (hr : Ended rest) (hp : point ≤ 0) :
    readNumber start negative
        ([.char '0', .char '.'] ++ (noughts (-point).toNat ++ t) ++ rest) =
      .ok (.num (.float (.finite negative u)), rest) := by
  have hz : ∀ l ∈ noughts (-point).toNat ++ t, isAsciiDigit l = true := fun l hl =>
    (List.mem_append.mp hl).elim isAsciiDigit_of_mem_noughts (h.digits l)
  have hm : Mantissa [.char '0'] (noughts (-point).toNat ++ t) :=
    ⟨by simp; rfl, by simp, .inl rfl, hz⟩
  have hv : value ([.char '0'] ++ (noughts (-point).toNat ++ t)) =
      value t := by
    rw [show [.char '0'] = noughts 1 from rfl, value_noughts_append hz,
      value_noughts_append h.digits]
  have hl : -((noughts (-point).toNat ++ t).length : Int) = point - t.length := by
    rw [List.length_append, List.length_replicate]
    omega
  refine (readNumber_fraction hm (by simp [h.nonempty]) hr).trans ?_
  rw [hv, hl, h.reads]

theorem readNumber_large (h : Spells t point u) (hr : Ended rest)
    (hp : (t.length : Int) ≤ point) :
    readNumber start negative
        (t ++ noughts (point.toNat - t.length) ++ [.char '.', .char '0'] ++ rest) =
      .ok (.num (.float (.finite negative u)), rest) := by
  have hz : ∀ l ∈ t ++ noughts (point.toNat - t.length), isAsciiDigit l = true :=
    fun l hl => (List.mem_append.mp hl).elim (h.digits l) isAsciiDigit_of_mem_noughts
  have hm : Mantissa (t ++ noughts (point.toNat - t.length)) [.char '0'] := by
    refine ⟨hz, by simp [h.nonempty], .inr ?_, by simp; rfl⟩
    obtain ⟨c, t, rfl⟩ := List.exists_cons_of_ne_nil h.nonempty
    exact h.head
  have hv : value (t ++ noughts (point.toNat - t.length) ++ [.char '0']) =
      value t * 10 ^ (point.toNat - t.length + 1) := by
    rw [List.append_assoc, show [.char '0'] = noughts 1 from rfl,
      List.replicate_append_replicate, value_append_noughts h.digits]
  have hx : (-1 : Int) = (point - t.length) - ((point.toNat - t.length + 1 : Nat) : Int) := by
    omega
  rw [List.append_assoc]
  refine (readNumber_fraction hm (by simp) hr).trans ?_
  rw [hv, show -(([.char '0'] : Text).length : Int) = -1 from rfl, hx, ofDecimal_mul_pow, h.reads]

theorem readNumber_between (h : Spells t point u) (hr : Ended rest) (h₁ : 0 < point)
    (h₂ : point < t.length) :
    readNumber start negative
        (t.take point.toNat ++ [.char '.'] ++ t.drop point.toNat ++ rest) =
      .ok (.num (.float (.finite negative u)), rest) := by
  have hm : Mantissa (t.take point.toNat) (t.drop point.toNat) := by
    refine ⟨fun l hl => h.digits l (List.mem_of_mem_take hl), ?_, .inr ?_,
      fun l hl => h.digits l (List.mem_of_mem_drop hl)⟩
    · intro e
      have := congrArg List.length e
      rw [List.length_take, List.length_nil] at this
      omega
    · rw [List.head?_take, if_neg (by omega)]
      exact h.head
  have hne : t.drop point.toNat ≠ [] := by
    intro e
    have := congrArg List.length e
    rw [List.length_drop, List.length_nil] at this
    omega
  have hl : -((t.drop point.toNat).length : Int) = point - t.length := by
    rw [List.length_drop]
    omega
  rw [List.append_assoc, List.append_assoc]
  refine (readNumber_fraction hm hne hr).trans ?_
  rw [List.take_append_drop, hl, h.reads]

theorem exponent_digits {n : Nat} {s : String}
    (hs : s = if (toString n).length < 2 then "0" ++ toString n else toString n) :
    (∀ l ∈ Text.ofString s, isAsciiDigit l = true) ∧ Text.ofString s ≠ [] ∧
      value (Text.ofString s) = n := by
  have hdigits : ∀ l ∈ digits n, isAsciiDigit l = true := fun l => isAsciiDigit_of_mem_digits
  subst hs
  split
  · have hz : Text.ofString ("0" ++ toString n) = noughts 1 ++ digits n := by
      rw [Text.ofString_append, ofString_toString]
      rfl
    rw [hz, value_noughts_append hdigits, value_digits]
    refine ⟨fun l hl => ?_, by simp, rfl⟩
    exact (List.mem_append.mp hl).elim isAsciiDigit_of_mem_noughts (hdigits l)
  · rw [ofString_toString, value_digits]
    exact ⟨hdigits, digits_ne_nil n, rfl⟩

theorem readNumber_scientific {s : String} (h : Spells t point u) (hr : Ended rest)
    (hs : s = if (toString (point - 1).natAbs).length < 2 then "0" ++ toString (point - 1).natAbs
      else toString (point - 1).natAbs) :
    readNumber start negative ((t.take 1 ++ pointed (t.drop 1)) ++
        .char 'e' :: .char (if point - 1 < 0 then '-' else '+') :: (Text.ofString s ++ rest)) =
      .ok (.num (.float (.finite negative u)), rest) := by
  obtain ⟨hds, hne, hv⟩ := exponent_digits hs
  obtain ⟨l, t, rfl⟩ := List.exists_cons_of_ne_nil h.nonempty
  have hreads : ofDecimal negative (value ([l] ++ t)) (point - (l :: t).length) =
    .finite negative u := h.reads negative
  have hm : Mantissa [l] t := by
    refine ⟨fun d hd => h.digits d ?_, by simp, .inr h.head, fun d hd => h.digits d ?_⟩
    · rw [List.mem_singleton.mp hd]
      exact List.mem_cons_self
    · exact List.mem_cons_of_mem _ hd
  have hx : (if decide (point - 1 < 0) = true then -((point - 1).natAbs : Int)
      else (point - 1).natAbs) - (t.length : Int) = point - (l :: t).length := by
    rw [List.length_cons]
    split
    · next h =>
      have := of_decide_eq_true h
      omega
    · next h =>
      have := of_decide_eq_false (Bool.not_eq_true _ ▸ h)
      omega
  have hsign : (if point - 1 < 0 then '-' else '+') =
      if decide (point - 1 < 0) = true then '-' else '+' := by
    simp only [decide_eq_true_eq]
  rw [List.append_assoc, hsign]
  refine (readNumber_exponent hm hds hne hr).trans ?_
  rw [hv, hx, hreads]

/-- The text of a double reads back as the double. -/
theorem readNumber_magnitudeText (h : Representable u) (hr : Ended rest) :
    readNumber start negative (Text.ofString (magnitudeText u) ++ rest) =
      .ok (.num (.float (.finite negative u)), rest) := by
  rcases Nat.eq_zero_or_pos u with rfl | hu
  · have hm : Mantissa [.char '0'] [.char '0'] := ⟨by simp; rfl, by simp, .inl rfl, by simp; rfl⟩
    have htext : magnitudeText 0 = "0.0" := if_pos rfl
    rw [htext]
    exact readNumber_fraction hm (by simp) hr
  have hspells := spells_decimalDigits h hu
  unfold magnitudeText
  rw [if_neg hu.ne']
  generalize decimalDigits u = p at *
  obtain ⟨cs, point⟩ := p
  have hmap : (cs.map Letter.char).length = cs.length := List.length_map _
  dsimp only at *
  split
  · split
    · next hp =>
      rw [Text.ofString_append, Text.ofString_ofList (_ ++ cs), List.map_append,
        List.map_replicate]
      exact readNumber_small hspells hr hp
    · next hp =>
      split
      · next hl =>
        rw [Text.ofString_append, Text.ofString_ofList, List.map_append, List.map_replicate,
          ← hmap]
        exact readNumber_large hspells hr (by rw [List.length_map]; omega)
      · next hl =>
        rw [Text.ofString_append, Text.ofString_append, Text.ofString_ofList (cs.take _),
          Text.ofString_ofList (cs.drop _), List.map_take, List.map_drop]
        exact readNumber_between hspells hr (by omega) (by rw [List.length_map]; omega)
  · have e : readNumber start negative _ = _ := readNumber_scientific hspells hr rfl
    have hsign : Text.ofString (if point - 1 < 0 then "-" else "+") =
        [.char (if point - 1 < 0 then '-' else '+')] := by
      split <;> rfl
    rw [← e, Text.ofString_append, Text.ofString_append, Text.ofString_append, hsign]
    congr 1
    have hne : cs ≠ [] := fun e => hspells.nonempty (List.map_eq_nil_iff.mpr e)
    obtain ⟨c, cs, rfl⟩ := List.exists_cons_of_ne_nil hne
    cases cs with
    | nil => simp [pointed, Text.ofString]
    | cons d ds => simp [pointed, Text.ofString]

end Doubles

theorem readNumber_digits {n : Nat} (hn : (Nat.toDigits 10 n).length ≤ digitLimit)
    (hr : Ended rest) :
    readNumber start negative (digits n ++ rest) =
      .ok (.int (if negative then -n else n), rest) := by
  have hm : Mantissa (digits n) [] := by
    refine ⟨fun l => isAsciiDigit_of_mem_digits, digits_ne_nil n, ?_, by simp⟩
    rcases Nat.eq_zero_or_pos n with rfl | hn
    · exact .inl rfl
    · exact .inr (head_digits_ne hn)
  have hp : rest.head? ≠ some (.char '.') := fun e => by
    rcases hr (.char '.') e with h | h | h <;> exact absurd h (by decide)
  have hlength : (digits n).length = (Nat.toDigits 10 n).length := List.length_map _
  refine (readNumber_mantissa hm hr.noDigit hp).trans ?_
  unfold numberOf
  rw [hr.exponent?]
  dsimp only
  rw [if_neg (hlength ▸ Nat.not_lt.mpr hn), value_digits]

section Scalars

variable {p : Json × Text}

theorem exists_digit_of_readNumber (h : readNumber start negative t = .ok p) :
    ∃ l rest, t = l :: rest ∧ isAsciiDigit l = true := by
  cases t with
  | nil => cases h
  | cons l t =>
    refine ⟨l, t, rfl, ?_⟩
    by_contra hl
    have hl0 : l ≠ .char '0' := by
      rintro rfl
      exact hl rfl
    have hw : wholeDigits (l :: t) = ([], l :: t) := by
      unfold wholeDigits
      dsimp only
      rw [if_neg hl0, if_neg hl]
    unfold readNumber at h
    rw [hw] at h
    cases h

theorem named_none {l : Letter} (hl : isAsciiDigit l = true) :
    (named.findSome? fun (name, v) => (Splitting.after? name (l :: t)).map (v, ·)) = none ∧
      (named.findSome? fun (name, v) => (Splitting.after? name (.char '-' :: l :: t)).map (v, ·)) =
        none := by
  have hne (c : Char) (hc : isAsciiDigit c = false) : Letter.char c ≠ l := by
    rintro rfl
    rw [hl] at hc
    cases hc
  constructor <;>
    simp [named, Splitting.after?, Text.ofString, hne 'n' rfl, hne 't' rfl, hne 'f' rfl,
      hne 'N' rfl, hne 'I' rfl, hne '-' rfl]

theorem readScalar_of_readNumber (h : readNumber t false t = .ok p) : readScalar t = .ok p := by
  obtain ⟨l, rest, rfl, hl⟩ := exists_digit_of_readNumber h
  unfold readScalar
  rw [(named_none hl).1]
  dsimp only
  split
  · next e =>
    obtain ⟨rfl, -⟩ := List.cons.inj e
    exact absurd hl (by decide)
  · exact h

theorem readScalar_minus (h : readNumber (.char '-' :: t) true t = .ok p) :
    readScalar (.char '-' :: t) = .ok p := by
  obtain ⟨l, rest, rfl, hl⟩ := exists_digit_of_readNumber h
  unfold readScalar
  rw [(named_none hl).2]
  exact h

theorem readScalar_int {z : Int} (hz : isTooLong z = false) (hr : Ended rest) :
    readScalar (Text.ofString (toString z) ++ rest) = .ok (.int z, rest) := by
  have hn : (Nat.toDigits 10 z.natAbs).length ≤ digitLimit :=
    Nat.not_lt.mp (of_decide_eq_false hz)
  cases z with
  | ofNat n =>
    have htext : Text.ofString (toString (Int.ofNat n)) = digits n := ofString_toString n
    rw [htext]
    exact readScalar_of_readNumber (readNumber_digits hn hr)
  | negSucc n =>
    have htext : Text.ofString (toString (Int.negSucc n)) = .char '-' :: digits (n + 1) := by
      change Text.ofString ("-" ++ toString (n + 1)) = _
      rw [Text.ofString_append, ofString_toString]
      rfl
    rw [htext]
    exact readScalar_minus (readNumber_digits hn hr)

theorem readScalar_float {x : Binary64} (hx : x.Proper) (hr : Ended rest) :
    readScalar (Text.ofString (numberText (.float x)) ++ rest) =
      .ok (.num (.float x), rest) := by
  unfold numberText
  dsimp only
  cases x with
  | nan => rfl
  | infinite negative => cases negative <;> rfl
  | finite negative u =>
    unfold textWith
    dsimp only
    cases negative with
    | false => exact readScalar_of_readNumber (readNumber_magnitudeText hx hr)
    | true =>
      rw [if_pos rfl, Text.ofString_append]
      exact readScalar_minus (readNumber_magnitudeText hx hr)

end Scalars

end AssertionGrant.Json
