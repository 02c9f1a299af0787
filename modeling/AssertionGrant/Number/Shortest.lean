import AssertionGrant.Number.Binary64

/-!
Decimal text of double precision numbers: the fewest digits that read back, of those the nearest
to the number, a tie to the even last digit; and reading a decimal numeral. `ofDecimal` is the
reader, and `shortest?` accepts a candidate only after reading it back.
-/

namespace AssertionGrant.Binary64

def ofDecimal (negative : Bool) (digits : Nat) (exponent : Int) : Binary64 :=
  if digits = 0 then .finite negative 0
  else
    let length : Int := (Nat.toDigits 10 digits).length
    if 400 < length + exponent then .infinite negative
    else if length + exponent < -400 then .finite negative 0
    else if 0 ≤ exponent then ofUnits negative (digits * Nat.pow 10 exponent.toNat * unit) 1
    else ofUnits negative (digits * unit) (Nat.pow 10 (-exponent).toNat)

def powerAtMost (k : Int) (u : Nat) : Bool :=
  if 0 ≤ k then decide (Nat.pow 10 k.toNat * unit ≤ u)
  else decide (unit ≤ u * Nat.pow 10 (-k).toNat)

def leadingExponent (u : Nat) : Int :=
  let guess := ((u.log2 : Int) - 1074) * 30103 / 100000
  (([guess + 2, guess + 1, guess].find? (powerAtMost · u)).getD (guess - 1))

/-- The two neighbours of the number on the grid of `10 ^ e`, the nearer first; on a tie the even
one. -/
def gridNeighbours (u : Nat) (e : Int) : List Nat :=
  let (n, d) :=
    if 0 ≤ e then (u, unit * Nat.pow 10 e.toNat) else (u * Nat.pow 10 (-e).toNat, unit)
  let lo := n / d
  let r := n % d
  if 2 * r < d ∨ (2 * r = d ∧ lo % 2 = 0) then [lo, lo + 1] else [lo + 1, lo]

def shortest? (u : Nat) : Option (Nat × Int) :=
  let k := leadingExponent u
  (List.range 17).findSome? fun (i : Nat) =>
    let e := k - (i : Int)
    (gridNeighbours u e).findSome? fun digits =>
      if ofDecimal false digits e = .finite false u then some (digits, e) else none

def allDigits (u : Nat) : Nat × Int := (u * Nat.pow 5 1074, -1074)

/-- Digits without trailing zeros, and the position of the decimal point among them. -/
def decimalDigits (u : Nat) : List Char × Int :=
  let (digits, e) := (shortest? u).getD (allDigits u)
  let cs := Nat.toDigits 10 digits
  let trimmed := (cs.reverse.dropWhile (· == '0')).reverse
  (trimmed, cs.length + e)

def magnitudeText (u : Nat) : String :=
  if u = 0 then "0.0"
  else
    let (cs, point) := decimalDigits u
    if -4 < point ∧ point ≤ 16 then
      if point ≤ 0 then
        "0." ++ String.ofList (List.replicate (-point).toNat '0' ++ cs)
      else
        let n := point.toNat
        if cs.length ≤ n then String.ofList (cs ++ List.replicate (n - cs.length) '0') ++ ".0"
        else String.ofList (cs.take n) ++ "." ++ String.ofList (cs.drop n)
    else
      let x := point - 1
      let digits := toString x.natAbs
      let padded := if digits.length < 2 then "0" ++ digits else digits
      let mantissa := match cs with
        | [] => "0"
        | [c] => String.singleton c
        | c :: rest => String.singleton c ++ "." ++ String.ofList rest
      mantissa ++ "e" ++ (if x < 0 then "-" else "+") ++ padded

structure Spelling where
  nan : String
  infinity : String

def textWith (s : Spelling) : Binary64 → String
  | .nan => s.nan
  | .infinite negative => (if negative then "-" else "") ++ s.infinity
  | .finite negative u => (if negative then "-" else "") ++ magnitudeText u

def text : Binary64 → String := textWith ⟨"nan", "inf"⟩

end AssertionGrant.Binary64

namespace AssertionGrant.Number

def text : Number → String
  | .int z => toString z
  | .float x => x.text

end AssertionGrant.Number
