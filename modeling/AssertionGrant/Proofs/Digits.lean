import Mathlib.Algebra.Ring.Nat
import AssertionGrant.Json.Reader
import AssertionGrant.Json.Writer
import AssertionGrant.Proofs.Texts

/-! Digits as they are written and read: a run of decimal digits up to the first character that is
none reads back as the number it was written for, and so do the four hexadecimal digits of an
escaped unit. -/

namespace AssertionGrant

def NoDigit (t : Text) : Prop := ∀ l, t.head? = some l → Json.isAsciiDigit l = false

theorem isAsciiDigit_char (c : Char) : Json.isAsciiDigit (.char c) = c.isDigit := by
  unfold Json.isAsciiDigit Char.isDigit
  rfl

namespace Numeral

variable {t : Text} {n : Nat}

theorem digit?_of_isAsciiDigit {l : Letter} (h : Json.isAsciiDigit l = true) :
    digit? l = some (l.code - 48) := by
  unfold Json.isAsciiDigit at h
  obtain ⟨h₁, h₂⟩ := Bool.and_eq_true_iff.mp h
  have h₁ : 48 ≤ l.code := of_decide_eq_true h₁
  have h₂ : l.code ≤ 57 := of_decide_eq_true h₂
  have hz : zeros.find? (fun z => z ≤ l.code && l.code < z + 10) = some 48 := by
    unfold zeros
    rw [List.find?_cons_of_pos]
    simp only [Bool.and_eq_true, decide_eq_true_eq]
    omega
  unfold digit?
  rw [hz]
  rfl

theorem foldl_value (h : ∀ l ∈ t, Json.isAsciiDigit l = true) (n : Nat) :
    t.foldl (fun n l => match digit? l with
      | some d => 10 * n + d
      | none => n) n = Nat.ofDigitChars 10 (t.filterMap Letter.char?) n := by
  induction t generalizing n with
  | nil => rfl
  | cons l t ih =>
    have hl := h l List.mem_cons_self
    rw [List.foldl_cons, digit?_of_isAsciiDigit hl,
      ih fun l hl => h l (List.mem_cons_of_mem _ hl)]
    cases l with
    | char c =>
      rw [List.filterMap_cons_some (f := Letter.char?) (a := .char c) rfl, Nat.ofDigitChars_cons]
      rfl
    | half m =>
      have hle : 0xD800 + m.val ≤ 57 := of_decide_eq_true (Bool.and_eq_true_iff.mp hl).2
      omega

theorem value_eq (h : ∀ l ∈ t, Json.isAsciiDigit l = true) :
    value t = Nat.ofDigitChars 10 (t.filterMap Letter.char?) 0 := foldl_value h 0

def digits (n : Nat) : Text := (Nat.toDigits 10 n).map .char

theorem ofString_toString (n : Nat) : Text.ofString (toString n) = digits n :=
  congrArg (List.map Letter.char) Nat.toList_repr

theorem isAsciiDigit_of_mem_digits {l : Letter} (h : l ∈ digits n) :
    Json.isAsciiDigit l = true := by
  obtain ⟨c, hc, rfl⟩ := List.mem_map.mp h
  rw [isAsciiDigit_char]
  exact Nat.isDigit_of_mem_toDigits (by decide) (by decide) hc

theorem value_digits (n : Nat) : value (digits n) = n := by
  rw [value_eq fun l => isAsciiDigit_of_mem_digits, digits, Text.filterMap_char?_map]
  exact Nat.ofDigitChars_ten_toDigits

theorem digits_ne_nil (n : Nat) : digits n ≠ [] :=
  fun h => Nat.toDigits_ne_nil (List.map_eq_nil_iff.mp h)

abbrev noughts (k : Nat) : Text := List.replicate k (.char '0')

theorem isAsciiDigit_of_mem_noughts {k : Nat} {l : Letter} (h : l ∈ noughts k) :
    Json.isAsciiDigit l = true := by
  rw [List.eq_of_mem_replicate h]
  rfl

theorem filterMap_noughts (k : Nat) :
    (noughts k).filterMap Letter.char? = List.replicate k '0' :=
  List.filterMap_replicate_of_some rfl

theorem value_append_noughts (h : ∀ l ∈ t, Json.isAsciiDigit l = true) (k : Nat) :
    value (t ++ noughts k) = value t * 10 ^ k := by
  have hall : ∀ l ∈ t ++ noughts k, Json.isAsciiDigit l = true := fun l hl =>
    (List.mem_append.mp hl).elim (h l) isAsciiDigit_of_mem_noughts
  rw [value_eq hall, value_eq h, List.filterMap_append, filterMap_noughts, Nat.ofDigitChars_append,
    Nat.ofDigitChars_replicate_zero, Nat.mul_comm]

theorem value_noughts_append (h : ∀ l ∈ t, Json.isAsciiDigit l = true) (k : Nat) :
    value (noughts k ++ t) = value t := by
  have hall : ∀ l ∈ noughts k ++ t, Json.isAsciiDigit l = true := fun l hl =>
    (List.mem_append.mp hl).elim isAsciiDigit_of_mem_noughts (h l)
  rw [value_eq hall, value_eq h, List.filterMap_append, filterMap_noughts, Nat.ofDigitChars_append,
    Nat.ofDigitChars_replicate_zero, Nat.mul_zero]

theorem head_digits_ne (hn : 0 < n) : (digits n).head? ≠ some (.char '0') := by
  rw [digits]
  induction n using Nat.strongRecOn with
  | ind n ih =>
    by_cases h : n < 10
    · rw [Nat.toDigits_of_lt_base h]
      simp only [List.map_cons, List.head?_cons, ne_eq, Option.some.injEq, Letter.char.injEq,
        Nat.digitChar_eq_zero]
      omega
    · have ih := ih (n / 10) (by omega) (by omega)
      obtain ⟨d, ds, e⟩ := List.exists_cons_of_ne_nil (Nat.toDigits_ne_nil (n := n / 10) (b := 10))
      rw [Nat.toDigits_of_base_le (by decide) (by omega), e, List.cons_append, List.map_cons,
        List.head?_cons]
      rwa [e, List.map_cons, List.head?_cons] at ih

end Numeral

namespace Json

variable {ds rest : Text}

theorem takeWhile_digits (h : ∀ l ∈ ds, isAsciiDigit l = true) (hr : NoDigit rest) :
    (ds ++ rest).takeWhile isAsciiDigit = ds ∧ (ds ++ rest).dropWhile isAsciiDigit = rest := by
  induction ds with
  | nil =>
    cases rest with
    | nil => exact ⟨rfl, rfl⟩
    | cons l rest =>
      have hl := hr l rfl
      simp only [List.nil_append, List.takeWhile_cons, List.dropWhile_cons, hl, Bool.false_eq_true,
        if_false, and_self]
  | cons l ds ih =>
    have hl := h l List.mem_cons_self
    obtain ⟨h₁, h₂⟩ := ih fun l hl => h l (List.mem_cons_of_mem _ hl)
    simp only [List.cons_append, List.takeWhile_cons, List.dropWhile_cons, hl, if_true, h₁, h₂,
      and_self]

theorem wholeDigits_append (h : ∀ l ∈ ds, isAsciiDigit l = true) (hne : ds ≠ [])
    (hz : ds = [.char '0'] ∨ ds.head? ≠ some (.char '0')) (hr : NoDigit rest) :
    wholeDigits (ds ++ rest) = (ds, rest) := by
  cases ds with
  | nil => exact absurd rfl hne
  | cons l ds =>
    rw [List.cons_append]
    unfold wholeDigits
    rcases hz with hz | hz
    · obtain ⟨rfl, rfl⟩ := List.cons.inj hz
      simp only [if_true, List.nil_append]
    · have hl : l ≠ '0' := fun e => hz (congrArg some e)
      obtain ⟨h₁, h₂⟩ := takeWhile_digits (fun l hl => h l (List.mem_cons_of_mem _ hl)) hr
      simp only [hl, if_false, h l List.mem_cons_self, if_true, h₁, h₂]

section Hex

theorem hexDigit?_digitChar : ∀ d < 16, hexDigit? (.char d.digitChar) = some d := by decide

def fourDigits (n : Nat) : List Char :=
  [n / 4096 % 16, n / 256 % 16, n / 16 % 16, n % 16].map Nat.digitChar

theorem toDigits_sixteen_of_le {n : Nat} (h : 16 ≤ n) :
    Nat.toDigits 16 n = Nat.toDigits 16 (n / 16) ++ [(n % 16).digitChar] :=
  Nat.toDigits_of_base_le (by decide) h

theorem toDigits_sixteen_of_lt {n : Nat} (h : n < 16) : Nat.toDigits 16 n = [n.digitChar] :=
  Nat.toDigits_of_lt_base h

theorem unitEscape_eq {n : Nat} (hn : n < 65536) : unitEscape n = '\\' :: 'u' :: fourDigits n := by
  have hzero : (0 : Nat).digitChar = '0' := rfl
  unfold unitEscape Text.hexPadded fourDigits
  dsimp only
  congr 2
  by_cases h₁ : n < 16
  · rw [toDigits_sixteen_of_lt h₁, show n / 4096 % 16 = 0 by omega, show n / 256 % 16 = 0 by omega,
      show n / 16 % 16 = 0 by omega, show n % 16 = n by omega]
    rfl
  rw [toDigits_sixteen_of_le (by omega)]
  by_cases h₂ : n < 256
  · rw [toDigits_sixteen_of_lt (by omega), show n / 4096 % 16 = 0 by omega,
      show n / 256 % 16 = 0 by omega, show n / 16 % 16 = n / 16 by omega]
    rfl
  rw [toDigits_sixteen_of_le (by omega), Nat.div_div_eq_div_mul]
  by_cases h₃ : n < 4096
  · rw [toDigits_sixteen_of_lt (by omega), show n / 4096 % 16 = 0 by omega,
      show n / 256 % 16 = n / (16 * 16) by omega]
    rfl
  rw [toDigits_sixteen_of_le (by omega), Nat.div_div_eq_div_mul,
    toDigits_sixteen_of_lt (by omega), show n / 4096 % 16 = n / (16 * 16 * 16) by omega,
    show n / 256 % 16 = n / (16 * 16) % 16 by omega]
  rfl

theorem fourHex?_fourDigits {n : Nat} (hn : n < 65536) (rest : Text) :
    fourHex? ((fourDigits n).map .char ++ rest) = some (n, rest) := by
  unfold fourDigits
  simp only [List.map_cons, List.map_nil, List.cons_append, List.nil_append, fourHex?]
  rw [hexDigit?_digitChar _ (Nat.mod_lt _ (by decide)),
    hexDigit?_digitChar _ (Nat.mod_lt _ (by decide)),
    hexDigit?_digitChar _ (Nat.mod_lt _ (by decide)),
    hexDigit?_digitChar _ (Nat.mod_lt _ (by decide))]
  simp only [Option.some.injEq, Prod.mk.injEq, and_true]
  omega

end Hex

end Json
end AssertionGrant
