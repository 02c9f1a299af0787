/-!
Arithmetic of natural numbers modulo a positive number: powers by squaring along the bits of the
exponent, and inverses modulo a prime.
-/

namespace AssertionGrant.Crypto

def bitsOf (n : Nat) : List Bool :=
  if n = 0 then [] else (List.range (n.log2 + 1)).reverse.map n.testBit

def powMod (base exponent m : Nat) : Nat :=
  (bitsOf exponent).foldl (fun acc bit =>
    let square := acc * acc % m
    if bit then square * base % m else square) (1 % m)

def subMod (a b m : Nat) : Nat := (a + m - b) % m

def invMod (a p : Nat) : Nat := powMod (a % p) (p - 2) p

end AssertionGrant.Crypto
