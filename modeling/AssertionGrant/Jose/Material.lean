import AssertionGrant.Crypto.Ed448
import AssertionGrant.Crypto.Edwards
import AssertionGrant.Crypto.EllipticCurve
import AssertionGrant.Crypto.Rsa

/-!
What keys are made of, whatever form they were read from.
-/

namespace AssertionGrant

open Crypto

inductive KeyMaterial where
  | rsaPublic (key : Rsa.PublicKey)
  | rsaPrivate (key : Rsa.PrivateKey)
  | ecPublic (curve : Curve) (x y : Nat)
  | ecPrivate (curve : Curve) (x y secret : Nat)
  /-- A key over a curve of which no more than the name is known. -/
  | ecNamed (curve : String)
  | ed25519Public (point : Bytes)
  | ed25519Private (seed : Bytes)
  | ed448Public (point : Bytes)
  | ed448Private (seed : Bytes)
  /-- A key of a family that no algorithm here takes. -/
  | foreign
  | secret (bytes : Bytes)
  | text (s : String)
  | absent
  deriving DecidableEq, Repr

namespace KeyMaterial

def ecPair? (curve : Curve) (secret : Nat) (point : Option (Nat × Nat)) : Option KeyMaterial :=
  match curve.publicPoint? secret with
  | some (x, y) =>
    if point.getD (x, y) = (x, y) then some (.ecPrivate curve x y secret) else none
  | none => none

def rsaPair? (key : Rsa.PrivateKey) (factors : Rsa.Factors) : Option KeyMaterial :=
  if key.hasFactors factors then some (.rsaPrivate key) else none

end KeyMaterial
end AssertionGrant
