import AssertionGrant.Text.Blank
import AssertionGrant.Text.Utf

/-!
Forms as requests carry them: names and values between `&` and `=`, with a plus for a space and a
percent sign before the two digits of a byte. Bytes that are no UTF-8 stay written as they were.
-/

namespace AssertionGrant.Form

def hexValue? (b : UInt8) : Option Nat :=
  let n := b.toNat
  if 48 ≤ n ∧ n ≤ 57 then some (n - 48)
  else if 65 ≤ n ∧ n ≤ 70 then some (n - 55)
  else if 97 ≤ n ∧ n ≤ 102 then some (n - 87)
  else none

def percentDecoded : Bytes → Bytes
  | 37 :: a :: b :: rest =>
    match hexValue? a, hexValue? b with
    | some x, some y => UInt8.ofNat (16 * x + y) :: percentDecoded rest
    | _, _ => 37 :: percentDecoded (a :: b :: rest)
  | x :: rest => x :: percentDecoded rest
  | [] => []

def hexDigit (n : Nat) : Char := if n < 10 then Char.ofNat (48 + n) else Char.ofNat (55 + n)

def percentEncoded (b : UInt8) : List Char :=
  ['%', hexDigit (b.toNat / 16), hexDigit (b.toNat % 16)]

/-- The characters of UTF-8 bytes; a byte that belongs to none is written with a percent sign.
`fuel` bounds the count of characters. -/
def charsOf : Nat → Bytes → List Char
  | _, [] => []
  | 0, _ => []
  | fuel + 1, bytes@(b :: rest) =>
    match Utf.readUtf8 bytes with
    | .ok (c, size) => c :: charsOf fuel (bytes.drop size)
    | .error _ => percentEncoded b ++ charsOf fuel rest

def component (cs : List Char) : String :=
  let spaced := cs.map fun c => if c = '+' then ' ' else c
  let bytes := percentDecoded (Utf.encode (String.ofList spaced))
  String.ofList (charsOf bytes.length bytes)

/-- The name before the first equals sign and the value after it, which is empty without one. -/
def field (cs : List Char) : String × String :=
  (component (cs.takeWhile (· ≠ '=')), component ((cs.dropWhile (· ≠ '=')).drop 1))

def parse (s : String) : List (String × String) :=
  ((Splitting.pieces '&' s.toList).filter (!·.isEmpty)).map field

def valuesOf (form : List (String × String)) (name : String) : List String :=
  (form.filter (·.1 = name)).map (·.2)

def firstValues (form : List (String × String)) : List (String × String) :=
  (Text.distinct (form.map (·.1))).filterMap fun name => form.find? (·.1 = name)

end AssertionGrant.Form
