import AssertionGrant.Crypto.Modular
import AssertionGrant.Crypto.Sha2

/-!
Signatures over curves `y² = x³ + a x + b` modulo a prime. Points are computed with a common
denominator, so that only the last step divides.
-/

namespace AssertionGrant.Crypto

structure Curve where
  name : String
  prime : Nat
  a : Nat
  b : Nat
  order : Nat
  baseX : Nat
  baseY : Nat
  size : Nat
  deriving DecidableEq, Repr

namespace Curve

def secp256r1 : Curve where
  name := "secp256r1"
  prime := 0xffffffff00000001000000000000000000000000ffffffffffffffffffffffff
  a := 0xffffffff00000001000000000000000000000000fffffffffffffffffffffffc
  b := 0x5ac635d8aa3a93e7b3ebbd55769886bc651d06b0cc53b0f63bce3c3e27d2604b
  order := 0xffffffff00000000ffffffffffffffffbce6faada7179e84f3b9cac2fc632551
  baseX := 0x6b17d1f2e12c4247f8bce6e563a440f277037d812deb33a0f4a13945d898c296
  baseY := 0x4fe342e2fe1a7f9b8ee7eb4a7c0f9e162bce33576b315ececbb6406837bf51f5
  size := 32

def secp384r1 : Curve where
  name := "secp384r1"
  prime := 0xfffffffffffffffffffffffffffffffffffffffffffffffffffffffffffffffeffffffff0000000000000000ffffffff
  a := 0xfffffffffffffffffffffffffffffffffffffffffffffffffffffffffffffffeffffffff0000000000000000fffffffc
  b := 0xb3312fa7e23ee7e4988e056be3f82d19181d9c6efe8141120314088f5013875ac656398d8a2ed19d2a85c8edd3ec2aef
  order := 0xffffffffffffffffffffffffffffffffffffffffffffffffc7634d81f4372ddf581a0db248b0a77aecec196accc52973
  baseX := 0xaa87ca22be8b05378eb1c71ef320ad746e1d3b628ba79b9859f741e082542a385502f25dbf55296c3a545e3872760ab7
  baseY := 0x3617de4a96262c6f5d9e98bf9292dc29f8f41dbd289a147ce9da3113b5f0b8c00a60b1ce1d7e819d7a431d7c90ea0e5f
  size := 48

def secp521r1 : Curve where
  name := "secp521r1"
  prime := 0x01ffffffffffffffffffffffffffffffffffffffffffffffffffffffffffffffffffffffffffffffffffffffffffffffffffffffffffffffffffffffffffffffffff
  a := 0x01fffffffffffffffffffffffffffffffffffffffffffffffffffffffffffffffffffffffffffffffffffffffffffffffffffffffffffffffffffffffffffffffffc
  b := 0x0051953eb9618e1c9a1f929a21a0b68540eea2da725b99b315f3b8b489918ef109e156193951ec7e937b1652c0bd3bb1bf073573df883d2c34f1ef451fd46b503f00
  order := 0x01fffffffffffffffffffffffffffffffffffffffffffffffffffffffffffffffffa51868783bf2f966b7fcc0148f709a5d03bb5c9b8899c47aebb6fb71e91386409
  baseX := 0x00c6858e06b70404e9cd9e3ecb662395b4429c648139053fb521f828af606b4d3dbaa14b5e77efe75928fe1dc127a2ffa8de3348b3c1856a429bf97e7e31c2e5bd66
  baseY := 0x011839296a789a3bc0045c8a5fb42c7d1bd998f54449579b446817afbd17273e662c97ee72995ef42640c550b9013fad0761353c7086a272c24088be94769fd16650
  size := 66

def secp256k1 : Curve where
  name := "secp256k1"
  prime := 0xfffffffffffffffffffffffffffffffffffffffffffffffffffffffefffffc2f
  a := 0
  b := 7
  order := 0xfffffffffffffffffffffffffffffffebaaedce6af48a03bbfd25e8cd0364141
  baseX := 0x79be667ef9dcbbac55a06295ce870b07029bfcdb2dce28d959f2815b16f81798
  baseY := 0x483ada7726a3c4655da4fbfc0e1108a8fd17b448a68554199c47d08ffb10d4b8
  size := 32

def contains (c : Curve) (x y : Nat) : Bool :=
  x < c.prime && y < c.prime &&
    y * y % c.prime == ((x * x % c.prime + c.a) * x + c.b) % c.prime

/-- A point `(x / z², y / z³)`; a zero `z` is the point at infinity. -/
structure Point where
  x : Nat
  y : Nat
  z : Nat

def infinity : Point := ⟨1, 1, 0⟩

def base (c : Curve) : Point := ⟨c.baseX, c.baseY, 1⟩

def double (c : Curve) (p : Point) : Point :=
  let m := c.prime
  if p.z = 0 ∨ p.y = 0 then infinity
  else
    let yy := p.y * p.y % m
    let s := 4 * p.x * yy % m
    let zz := p.z * p.z % m
    let t := (3 * (p.x * p.x % m) + c.a * (zz * zz % m)) % m
    let x := subMod (t * t % m) (2 * s % m) m
    let y := subMod (t * subMod s x m % m) (8 * (yy * yy % m) % m) m
    ⟨x, y, 2 * p.y * p.z % m⟩

def add (c : Curve) (p q : Point) : Point :=
  let m := c.prime
  if p.z = 0 then q
  else if q.z = 0 then p
  else
    let pzz := p.z * p.z % m
    let qzz := q.z * q.z % m
    let u1 := p.x * qzz % m
    let u2 := q.x * pzz % m
    let s1 := p.y * (qzz * q.z % m) % m
    let s2 := q.y * (pzz * p.z % m) % m
    if u1 = u2 then
      if s1 = s2 then c.double p else infinity
    else
      let h := subMod u2 u1 m
      let r := subMod s2 s1 m
      let hh := h * h % m
      let hhh := h * hh % m
      let v := u1 * hh % m
      let x := subMod (subMod (r * r % m) hhh m) (2 * v % m) m
      let y := subMod (r * subMod v x m % m) (s1 * hhh % m) m
      ⟨x, y, h * (p.z * q.z % m) % m⟩

def multiple (c : Curve) (k : Nat) (p : Point) : Point :=
  (bitsOf k).foldl (fun acc bit =>
    let twice := c.double acc
    if bit then c.add twice p else twice) infinity

def coordinates? (c : Curve) (p : Point) : Option (Nat × Nat) :=
  if p.z = 0 then none
  else
    let inv := invMod p.z c.prime
    let square := inv * inv % c.prime
    some (p.x * square % c.prime, p.y * (square * inv % c.prime) % c.prime)

def abscissa? (c : Curve) (p : Point) : Option Nat := (c.coordinates? p).map (·.1)

def publicPoint? (c : Curve) (secret : Nat) : Option (Nat × Nat) :=
  if 1 ≤ secret ∧ secret < c.order then c.coordinates? (c.multiple secret c.base) else none

/-- The second coordinate that goes with a first one and has a given parity. Every prime here is one
less than a multiple of four, so a power gives the square root if there is one. -/
def ordinate? (c : Curve) (x : Nat) (odd : Bool) : Option Nat :=
  let square := ((x * x % c.prime + c.a) * x + c.b) % c.prime
  let root := powMod square ((c.prime + 1) / 4) c.prime
  let y := if (root % 2 == 1) == odd then root else subMod 0 root c.prime
  if c.contains x y then some y else none

def pointOf? (c : Curve) : Bytes → Option (Nat × Nat)
  | [] => none
  | form :: bytes =>
    let x := Sha2.ofBigEndian (bytes.take c.size)
    let y := Sha2.ofBigEndian (bytes.drop c.size)
    if form = 4 ∧ bytes.length = 2 * c.size then
      if c.contains x y then some (x, y) else none
    else if (form = 2 ∨ form = 3) ∧ bytes.length = c.size then
      (c.ordinate? x (form == 3)).map fun y => (x, y)
    else none

def digestNumber (c : Curve) (digest : Bytes) : Nat :=
  let bits := c.order.log2 + 1
  Sha2.ofBigEndian digest >>> (8 * digest.length - bits)

/-- The first candidate for the secret number of a signature: below the order, and drawn from the
key and the digest by keyed digests, so that signing needs no source of chance. -/
def nonceFrom (c : Curve) (h : Hash) : Nat → Bytes → Bytes → Nat
  | 0, _, _ => 1
  | fuel + 1, k, v =>
    let bits := c.order.log2 + 1
    let size := (bits + 7) / 8
    let grown := (List.range ((size + h.size - 1) / h.size)).foldl
      (fun (acc : Bytes × Bytes) _ =>
        let v := h.keyed k acc.1
        (v, acc.2 ++ v)) (v, [])
    let candidate := Sha2.ofBigEndian (grown.2.take size) >>> (8 * size - bits)
    if 1 ≤ candidate ∧ candidate < c.order then candidate
    else
      let k := h.keyed k (grown.1 ++ [0])
      nonceFrom c h fuel k (h.keyed k grown.1)

def nonce (c : Curve) (h : Hash) (secret : Nat) (e : Nat) : Nat :=
  let size := (c.order.log2 + 8) / 8
  let material := Sha2.bigEndian size secret ++ Sha2.bigEndian size (e % c.order)
  let v := List.replicate h.size 1
  let k := List.replicate h.size 0
  let k := h.keyed k (v ++ 0 :: material)
  let v := h.keyed k v
  let k := h.keyed k (v ++ 1 :: material)
  nonceFrom c h 64 k (h.keyed k v)

def sign (c : Curve) (h : Hash) (secret : Nat) (message : Bytes) : Bytes :=
  let e := c.digestNumber (h.digest message)
  let k := c.nonce h secret e
  let r := ((c.abscissa? (c.multiple k c.base)).getD 0) % c.order
  let s := invMod k c.order * (e + r * secret) % c.order
  Sha2.bigEndian c.size r ++ Sha2.bigEndian c.size s

def verify (c : Curve) (h : Hash) (x y : Nat) (message signature : Bytes) : Bool :=
  if signature.length ≠ 2 * c.size then false
  else
    let r := Sha2.ofBigEndian (signature.take c.size)
    let s := Sha2.ofBigEndian (signature.drop c.size)
    if r = 0 ∨ s = 0 ∨ c.order ≤ r ∨ c.order ≤ s then false
    else
      let w := invMod s c.order
      let e := c.digestNumber (h.digest message)
      let sum := c.add (c.multiple (e * w % c.order) c.base)
        (c.multiple (r * w % c.order) ⟨x, y, 1⟩)
      match c.abscissa? sum with
      | some v => v % c.order == r
      | none => false

end Curve
end AssertionGrant.Crypto
