import AssertionGrant.Crypto.Modular
import AssertionGrant.Crypto.Sha2

/-!
Deterministic signatures over the twisted Edwards curve `-x² + y² = 1 + d x² y²` modulo
`2²⁵⁵ - 19`. Points carry the product of their coordinates, and a key is one encoded point.
-/

namespace AssertionGrant.Crypto.Ed25519

def prime : Nat := Nat.pow 2 255 - 19

def order : Nat := Nat.pow 2 252 + 27742317777372353535851937790883648493

def d : Nat := 37095705934669439343138083508754565189542113879843219016388785533085940283555

def rootOfMinusOne : Nat :=
  19681161376707505956807079304988542015446066515923890162744021073123829784752

/-- A point `(x / z, y / z)` with `t = x y / z`. -/
structure Point where
  x : Nat
  y : Nat
  z : Nat
  t : Nat

def zero : Point := ⟨0, 1, 1, 0⟩

def base : Point :=
  let x := 15112221349535400772501151409588531511454012693041857206046113283949847762202
  let y := 46316835694926478169428394003475163141307993866256225615783033603165251855960
  ⟨x, y, 1, x * y % prime⟩

def add (p q : Point) : Point :=
  let a := subMod p.y p.x prime * subMod q.y q.x prime % prime
  let b := (p.y + p.x) * (q.y + q.x) % prime
  let c := 2 * (p.t * q.t % prime) * d % prime
  let e := 2 * p.z * q.z % prime
  let f := subMod b a prime
  let g := subMod e c prime
  let h := (e + c) % prime
  let k := (b + a) % prime
  ⟨f * g % prime, h * k % prime, g * h % prime, f * k % prime⟩

def double (p : Point) : Point :=
  let a := p.x * p.x % prime
  let b := p.y * p.y % prime
  let c := 2 * (p.z * p.z % prime) % prime
  let h := (a + b) % prime
  let xy := (p.x + p.y) % prime
  let e := subMod h (xy * xy % prime) prime
  let g := subMod a b prime
  let f := (c + g) % prime
  ⟨e * f % prime, g * h % prime, f * g % prime, e * h % prime⟩

def multiple (k : Nat) (p : Point) : Point :=
  (bitsOf k).foldl (fun acc bit =>
    let twice := double acc
    if bit then add twice p else twice) zero

def ofLittleEndian (bytes : Bytes) : Nat := Sha2.ofBigEndian bytes.reverse

def littleEndian (n : Nat) : Bytes := (Sha2.bigEndian 32 n).reverse

def encode (p : Point) : Bytes :=
  let inv := invMod p.z prime
  let x := p.x * inv % prime
  let y := p.y * inv % prime
  littleEndian (y + if x % 2 = 1 then Nat.pow 2 255 else 0)

/-- The negative of the point that bytes encode. -/
def decodeNegative? (bytes : Bytes) : Option Point :=
  let n := ofLittleEndian bytes
  let odd := Nat.pow 2 255 ≤ n
  let y := n % Nat.pow 2 255 % prime
  let yy := y * y % prime
  let u := subMod yy 1 prime
  let v := (d * yy + 1) % prime
  let v3 := v * v % prime * v % prime
  let v7 := v3 * v3 % prime * v % prime
  let x := u * v3 % prime * powMod (u * v7 % prime) ((prime - 5) / 8) prime % prime
  let check := v * (x * x % prime) % prime
  let root := if check = u then some x
    else if check = subMod 0 u prime then some (x * rootOfMinusOne % prime)
    else none
  root.map fun x =>
    let x := if (x % 2 = 1) = odd then subMod 0 x prime else x
    ⟨x, y, 1, x * y % prime⟩

def expand (seed : Bytes) : Nat × Bytes :=
  let h := Hash.sha512.digest seed
  let n := ofLittleEndian (h.take 32)
  (n % Nat.pow 2 254 / 8 * 8 + Nat.pow 2 254, h.drop 32)

def publicKey (seed : Bytes) : Bytes := encode (multiple (expand seed).1 base)

def challenge (r key message : Bytes) : Nat :=
  ofLittleEndian (Hash.sha512.digest (r ++ key ++ message)) % order

def sign (seed message : Bytes) : Bytes :=
  let (a, text) := expand seed
  let key := encode (multiple a base)
  let k := ofLittleEndian (Hash.sha512.digest (text ++ message)) % order
  let r := encode (multiple k base)
  let s := (k + challenge r key message * a) % order
  r ++ littleEndian s

def verify (key message signature : Bytes) : Bool :=
  if signature.length ≠ 64 then false
  else
    let r := signature.take 32
    let s := ofLittleEndian (signature.drop 32)
    if order ≤ s then false
    else match decodeNegative? key with
      | none => false
      | some minus =>
        encode (add (multiple s base) (multiple (challenge r key message) minus)) == r

end AssertionGrant.Crypto.Ed25519
