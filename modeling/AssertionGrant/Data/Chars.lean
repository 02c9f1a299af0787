import AssertionGrant.Data.Splitting

/-!
Characters, and the strings that travel between programs: blanks, trimming, and the case of ASCII
letters.
-/

namespace AssertionGrant.Chars

def isBlank (c : Char) : Bool :=
  let n := c.toNat
  (9 ≤ n && n ≤ 13) || (28 ≤ n && n ≤ 32) || n == 0x85 || n == 0xA0 || n == 0x1680 ||
    (0x2000 ≤ n && n ≤ 0x200A) || n == 0x2028 || n == 0x2029 || n == 0x202F || n == 0x205F ||
    n == 0x3000

def lower (c : Char) : Char := if 'A' ≤ c ∧ c ≤ 'Z' then Char.ofNat (c.toNat + 32) else c

def asciiLower (s : String) : String := String.ofList (s.toList.map lower)

def trim (s : String) : String := String.ofList (Splitting.trimBoth isBlank s.toList)

end AssertionGrant.Chars
