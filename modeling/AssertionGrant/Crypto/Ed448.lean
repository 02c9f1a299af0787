import AssertionGrant.Crypto.Keccak
import AssertionGrant.Crypto.Modular
import AssertionGrant.Crypto.Sha2

/-!
Deterministic signatures over the Edwards curve `x² + y² = 1 + d x² y²` modulo `2⁴⁴⁸ - 2²²⁴ - 1`.
-/

namespace AssertionGrant.Crypto.Ed448

def prime : Nat := Nat.pow 2 448 - Nat.pow 2 224 - 1

def order : Nat :=
  Nat.pow 2 446 - 13818066809895115352007386748515426880336692474882178609894547503885

def minusD : Nat := 39081

def size : Nat := 57

structure Point where
  x : Nat
  y : Nat
  z : Nat

def zero : Point := ⟨0, 1, 1⟩

def base : Point where
  x := 0x4f1970c66bed0ded221d15a622bf36da9e146570470f1767ea6de324a3d3a46412ae1af72ab66511433b80e18b00938e2626a82bc70cc05e
  y := 0x693f46716eb6bc248876203756c9c7624bea73736ca3984087789c1e05a0c2d73ad3ff1ce67c39c4fdbd132c4ed7c8ad9808795bf230fa14
  z := 1

def add (p q : Point) : Point :=
  let m := prime
  let a := p.z * q.z % m
  let b := a * a % m
  let c := p.x * q.x % m
  let d := p.y * q.y % m
  let e := minusD * (c * d % m) % m
  let f := (b + e) % m
  let g := subMod b e m
  let h := (p.x + p.y) * (q.x + q.y) % m
  let x := a * f % m * subMod h ((c + d) % m) m % m
  let y := a * g % m * subMod d c m % m
  ⟨x, y, f * g % m⟩

def double (p : Point) : Point :=
  let m := prime
  let s := (p.x + p.y) % m
  let b := s * s % m
  let c := p.x * p.x % m
  let d := p.y * p.y % m
  let e := (c + d) % m
  let j := subMod e (2 * (p.z * p.z % m) % m) m
  ⟨subMod b e m * j % m, e * subMod c d m % m, e * j % m⟩

def negative (p : Point) : Point := { p with x := subMod 0 p.x prime }

def multiple (k : Nat) (p : Point) : Point :=
  (bitsOf k).foldl (fun acc bit =>
    let twice := double acc
    if bit then add twice p else twice) zero

def ofLittleEndian (bytes : Bytes) : Nat := Sha2.ofBigEndian bytes.reverse

def littleEndian (n : Nat) : Bytes := (Sha2.bigEndian size n).reverse

def encode (p : Point) : Bytes :=
  let inv := invMod p.z prime
  let x := p.x * inv % prime
  let y := p.y * inv % prime
  littleEndian (y + if x % 2 = 1 then Nat.pow 2 455 else 0)

def decode? (bytes : Bytes) : Option Point :=
  let n := ofLittleEndian bytes
  let odd := Nat.pow 2 455 ≤ n
  let y := n % Nat.pow 2 455
  if bytes.length ≠ size ∨ prime ≤ y then none
  else
    let yy := y * y % prime
    let u := subMod 1 yy prime
    let v := (minusD * yy + 1) % prime
    let u3v := u * u % prime * u % prime * v % prime
    let u5v3 := u3v * (u * u % prime) % prime * (v * v % prime) % prime
    let x := u3v * powMod u5v3 ((prime - 3) / 4) prime % prime
    if v * (x * x % prime) % prime ≠ u then none
    else if x = 0 ∧ odd then none
    else some ⟨if (x % 2 = 1) = odd then x else subMod 0 x prime, y, 1⟩

def expand (seed : Bytes) : Nat × Bytes :=
  let h := Keccak.shake256 (2 * size) seed
  let n := ofLittleEndian (h.take size)
  (n % Nat.pow 2 447 / 4 * 4 + Nat.pow 2 447, h.drop size)

def publicKey (seed : Bytes) : Bytes := encode (multiple (expand seed).1 base)

def digest (message : Bytes) : Nat :=
  let name : Bytes := [0x53, 0x69, 0x67, 0x45, 0x64, 0x34, 0x34, 0x38, 0, 0]
  ofLittleEndian (Keccak.shake256 (2 * size) (name ++ message)) % order

def sign (seed message : Bytes) : Bytes :=
  let (a, text) := expand seed
  let key := encode (multiple a base)
  let k := digest (text ++ message)
  let r := encode (multiple k base)
  let s := (k + digest (r ++ key ++ message) * a) % order
  r ++ littleEndian s

/-- Whether two points are the same but for a point of an order that divides four. -/
def agree (p q : Point) : Bool :=
  let difference := double (double (add p (negative q)))
  difference.x == 0 && difference.y == difference.z

def verify (key message signature : Bytes) : Bool :=
  let r := signature.take size
  let s := ofLittleEndian (signature.drop size)
  if signature.length ≠ 2 * size ∨ order ≤ s then false
  else match decode? key, decode? r with
    | some a, some b =>
      agree (multiple s base) (add b (multiple (digest (r ++ key ++ message)) a))
    | _, _ => false

end AssertionGrant.Crypto.Ed448
