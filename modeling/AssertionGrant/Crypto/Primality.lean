import AssertionGrant.Crypto.Modular

/-!
A test whether a number is prime, by the square roots of one that a base runs through, and the prime
factors of a modulus, found from a pair of exponents that undo each other.
-/

namespace AssertionGrant.Crypto

def oddPart : Nat → Nat → Nat × Nat
  | 0, n => (n, 0)
  | fuel + 1, n =>
    if n = 0 ∨ n % 2 = 1 then (n, 0)
    else
      let (odd, twos) := oddPart fuel (n / 2)
      (odd, twos + 1)

def splitTwos (n : Nat) : Nat × Nat := oddPart (n.log2 + 1) n

def smallPrimes : List Nat := [2, 3, 5, 7, 11, 13, 17, 19, 23, 29, 31, 37, 41, 43]

def reachesMinusOne (n : Nat) : Nat → Nat → Bool
  | 0, _ => false
  | times + 1, power => power + 1 == n || reachesMinusOne n times (power * power % n)

def passesBase (n base : Nat) : Bool :=
  let (odd, twos) := splitTwos (n - 1)
  let power := powMod base odd n
  power == 1 || reachesMinusOne n twos power

/-- Whether a number is prime, as far as the bases of the list can tell. -/
def isPrime (n : Nat) : Bool :=
  if n < 2 then false
  else if smallPrimes.contains n then true
  else smallPrimes.all fun p => n % p ≠ 0 && passesBase n p

def properRoot? (n : Nat) : Nat → Nat → Option Nat
  | 0, _ => none
  | times + 1, power =>
    let square := power * power % n
    if power ≠ 1 ∧ power + 1 ≠ n ∧ square = 1 then some power else properRoot? n times square

/-- Two factors of `n`, the greater one first, given a multiple of the order of its units. -/
def factorsFrom? (n multiple : Nat) : Option (Nat × Nat) :=
  let (odd, twos) := splitTwos multiple
  let bases := smallPrimes ++ (List.range 50).map (2 * · + 45)
  (bases.findSome? fun base => properRoot? n twos (powMod (base % n) odd n)).map fun root =>
    let p := Nat.gcd (root + 1) n
    (max p (n / p), min p (n / p))

end AssertionGrant.Crypto
