import AssertionGrant.Crypto.Primality
import AssertionGrant.Crypto.Sha2

/-!
Signatures with an integer modulus, in the deterministic form, where the digest fills a fixed
frame, and in the probabilistic form, where a salt as long as the digest masks it.
-/

namespace AssertionGrant.Crypto.Rsa

open Sha2

structure PublicKey where
  modulus : Nat
  exponent : Nat
  deriving DecidableEq, Repr

structure PrivateKey where
  modulus : Nat
  exponent : Nat
  secret : Nat
  deriving DecidableEq, Repr

def PrivateKey.public (key : PrivateKey) : PublicKey := ⟨key.modulus, key.exponent⟩

structure Factors where
  p : Nat
  q : Nat
  secretP : Nat
  secretQ : Nat
  inverse : Nat
  deriving DecidableEq, Repr

def PublicKey.isPlausible (key : PublicKey) : Bool :=
  decide (3 ≤ key.exponent ∧ key.exponent < key.modulus) && key.exponent % 2 == 1

def PrivateKey.hasFactors (key : PrivateKey) (f : Factors) : Bool :=
  let n := key.modulus
  key.public.isPlausible && [f.p, f.q, f.secretP, f.secretQ, f.inverse, key.secret].all (· < n) &&
    f.p * f.q == n && f.p % 2 == 1 && f.q % 2 == 1 && isPrime f.p && isPrime f.q &&
    key.secret * key.exponent % Nat.lcm (f.p - 1) (f.q - 1) == 1 &&
    f.secretP == key.secret % (f.p - 1) && f.secretQ == key.secret % (f.q - 1) &&
    f.inverse < f.p && f.inverse * f.q % f.p == 1

/-- The factors that the two exponents of a private key give away. -/
def PrivateKey.recover? (key : PrivateKey) : Option Factors :=
  let product := key.exponent * key.secret
  if key.modulus < 3 ∨ key.exponent ≤ 1 ∨ key.secret ≤ 1 then none
  else if powMod 17 product key.modulus ≠ 17 then none
  else (factorsFrom? key.modulus (product - 1)).map fun (p, q) =>
    ⟨p, q, key.secret % (p - 1), key.secret % (q - 1), invMod q p⟩

def modulusBits (modulus : Nat) : Nat := if modulus = 0 then 0 else modulus.log2 + 1

def signatureSize (modulus : Nat) : Nat := (modulusBits modulus + 7) / 8

def digestLabel : Hash → Bytes
  | .sha256 =>
    [0x30, 0x31, 0x30, 0x0d, 0x06, 0x09, 0x60, 0x86, 0x48, 0x01, 0x65, 0x03, 0x04, 0x02, 0x01, 0x05,
     0x00, 0x04, 0x20]
  | .sha384 =>
    [0x30, 0x41, 0x30, 0x0d, 0x06, 0x09, 0x60, 0x86, 0x48, 0x01, 0x65, 0x03, 0x04, 0x02, 0x02, 0x05,
     0x00, 0x04, 0x30]
  | .sha512 =>
    [0x30, 0x51, 0x30, 0x0d, 0x06, 0x09, 0x60, 0x86, 0x48, 0x01, 0x65, 0x03, 0x04, 0x02, 0x03, 0x05,
     0x00, 0x04, 0x40]

def frame? (h : Hash) (size : Nat) (message : Bytes) : Option Bytes :=
  let body := digestLabel h ++ h.digest message
  if size < body.length + 11 then none
  else some (0 :: 1 :: (List.replicate (size - body.length - 3) 0xff ++ 0 :: body))

def open? (key : PublicKey) (signature : Bytes) (size : Nat) : Option Bytes :=
  let s := ofBigEndian signature
  if signature.length ≠ signatureSize key.modulus ∨ key.modulus ≤ s then none
  else some (bigEndian size (powMod s key.exponent key.modulus))

def verifyFramed (h : Hash) (key : PublicKey) (message signature : Bytes) : Bool :=
  let size := signatureSize key.modulus
  match open? key signature size, frame? h size message with
  | some opened, some frame => opened == frame
  | _, _ => false

def signFramed? (h : Hash) (key : PrivateKey) (message : Bytes) : Option Bytes :=
  let size := signatureSize key.modulus
  (frame? h size message).map fun frame =>
    bigEndian size (powMod (ofBigEndian frame) key.secret key.modulus)

def mask (h : Hash) (seed : Bytes) (size : Nat) : Bytes :=
  ((List.range ((size + h.size - 1) / h.size)).flatMap fun i =>
    h.digest (seed ++ bigEndian 4 i)).take size

def fitsSalted (h : Hash) (modulus : Nat) : Bool :=
  decide (2 * h.size + 2 ≤ (modulusBits modulus - 1 + 7) / 8)

def checkSalted (h : Hash) (bits : Nat) (message opened : Bytes) : Bool :=
  let spare := opened.length - h.size - 1
  let masked := opened.take spare
  let rest := opened.drop spare
  let seed := rest.take h.size
  let top : UInt8 := UInt8.ofNat (0xff >>> (8 * opened.length - bits))
  let block := List.zipWith (· ^^^ ·) masked (mask h seed spare)
  let block := match block with
    | first :: more => (first &&& top) :: more
    | [] => []
  let zeros := spare - h.size - 1
  let salt := block.drop (spare - h.size)
  rest.drop h.size == [0xbc] &&
    (match masked with
      | first :: _ => first &&& ~~~top == 0
      | [] => false) &&
    block.take zeros == List.replicate zeros 0 &&
    (block.drop zeros).take 1 == [1] &&
    h.digest (List.replicate 8 0 ++ h.digest message ++ salt) == seed

def saltedFrame (h : Hash) (bits : Nat) (message salt : Bytes) : Bytes :=
  let size := (bits + 7) / 8
  let spare := size - h.size - 1
  let seed := h.digest (List.replicate 8 0 ++ h.digest message ++ salt)
  let block := List.replicate (spare - salt.length - 1) 0 ++ 1 :: salt
  let masked := List.zipWith (· ^^^ ·) block (mask h seed spare)
  let top : UInt8 := UInt8.ofNat (0xff >>> (8 * size - bits))
  let masked := match masked with
    | first :: more => (first &&& top) :: more
    | [] => []
  masked ++ seed ++ [0xbc]

/-- The probabilistic signature, if the modulus is long enough. The salt is a keyed digest of the
message under the secret exponent, so that signing needs no source of chance. -/
def signSalted? (h : Hash) (key : PrivateKey) (message : Bytes) : Option Bytes :=
  let size := signatureSize key.modulus
  let salt := h.keyed (bigEndian size key.secret) message
  if fitsSalted h key.modulus then
    let frame := saltedFrame h (modulusBits key.modulus - 1) message salt
    some (bigEndian size (powMod (ofBigEndian frame) key.secret key.modulus))
  else none

def verifySalted (h : Hash) (key : PublicKey) (message signature : Bytes) : Bool :=
  let bits := modulusBits key.modulus - 1
  let size := (bits + 7) / 8
  fitsSalted h key.modulus &&
    match open? key signature (signatureSize key.modulus) with
    | some opened =>
      let lead := opened.length - size
      opened.take lead == List.replicate lead 0 && checkSalted h bits message (opened.drop lead)
    | none => false

end AssertionGrant.Crypto.Rsa
