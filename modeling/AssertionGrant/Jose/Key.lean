import AssertionGrant.Jose.Algorithm
import AssertionGrant.Text.Quoted

/-!
Keys in their JSON form: the fields of an object, and the key material that they spell. The
algorithm that the fields name, or else the one that belongs to the kind of key, decides how they
are read. The letters of a field are read leniently, but the numbers that they spell have to fit
together.
-/

namespace AssertionGrant

open Crypto

structure Jwk where
  fields : Fields
  material : KeyMaterial

namespace Jwk

inductive Fault where
  | notAnObject
  | kindMissing
  | curveMissing
  | unsupported (what : String)
  | unknownAlgorithm
  | unsecured
  | malformed (why : String)
  | missing (name : String)
  /-- The algorithm is named by a value that no name can be compared with. -/
  | incomparable
  deriving DecidableEq, Repr

def Fault.message : Fault → String
  | .notAnObject => "a key is an object"
  | .kindMissing => "kty is not found: "
  | .curveMissing => "crv is not found: "
  | .unsupported what => "Unsupported " ++ what
  | .unknownAlgorithm => "Unable to find an algorithm for key: "
  | .unsecured => "an unsecured algorithm has no keys"
  | .malformed why => "Unable to construct key from JWK: " ++ why
  | .missing name => Text.quoted name
  | .incomparable => "the name of an algorithm is a text"

def id (key : Jwk) : Json := (key.fields.get? "kid").getD .null

def isText (v : Option Json) (s : Text) : Bool :=
  match v with
  | some (.str t) => t == s
  | _ => false

def isPresent (v : Option Json) : Bool :=
  match v with
  | some v => v.isTruthy
  | none => false

def impliedAlgorithm (fields : Fields) : Except Fault Text :=
  let kind := fields.get? "kty"
  let curve := fields.get? "crv"
  if isText kind "EC" then
    if !isPresent curve || isText curve "P-256" then .ok "ES256"
    else if isText curve "P-384" then .ok "ES384"
    else if isText curve "P-521" then .ok "ES512"
    else if isText curve "secp256k1" then .ok "ES256K"
    else .error (.unsupported "crv")
  else if isText kind "RSA" then .ok "RS256"
  else if isText kind "oct" then .ok "HS256"
  else if isText kind "OKP" then
    if !isPresent curve then .error .curveMissing
    else if isText curve "Ed25519" then .ok "EdDSA"
    else .error (.unsupported "crv")
  else .error (.unsupported "kty")

/-- The name of the algorithm that reads the fields: the one they name, else the implied one. -/
def algorithmName (fields : Fields) : Except Fault Text :=
  match fields.get? "alg" with
  | some (.str name) => if name.isEmpty then impliedAlgorithm fields else .ok name
  | some v =>
    if !v.isTruthy then impliedAlgorithm fields
    else if v.isContainer then .error .incomparable
    else .error .unknownAlgorithm
  | none => impliedAlgorithm fields

def bytesOf (fields : Fields) (name : String) : Except Fault Bytes :=
  match fields.get? name with
  | some (.str s) =>
    match s.toString?.bind Base64.decodeEither with
    | some bytes => .ok bytes
    | none => .error (.malformed name)
  | _ => .error (.malformed name)

def numberOf (fields : Fields) (name : String) : Except Fault Nat :=
  (bytesOf fields name).map Sha2.ofBigEndian

def requireKind (fields : Fields) (kind : Text) : Except Fault Unit :=
  if isText (fields.get? "kty") kind then .ok () else .error (.malformed "kty")

def orMalformed {α : Type} (name : String) : Option α → Except Fault α
  | some a => .ok a
  | none => .error (.malformed name)

def factorNames : List Text := ["p", "q", "dp", "dq", "qi"]

def readFactors (fields : Fields) : Except Fault Rsa.Factors := do
  orMalformed "p" (if factorNames.all fields.has then some () else none)
  let p ← numberOf fields "p"
  let q ← numberOf fields "q"
  let secretP ← numberOf fields "dp"
  let secretQ ← numberOf fields "dq"
  let inverse ← numberOf fields "qi"
  pure ⟨p, q, secretP, secretQ, inverse⟩

def readRsa (fields : Fields) : Except Fault KeyMaterial := do
  requireKind fields "RSA"
  let n ← numberOf fields "n"
  let e ← numberOf fields "e"
  if !fields.has "d" then
    let key : Rsa.PublicKey := ⟨n, e⟩
    orMalformed "n" (if key.isPlausible then some (.rsaPublic key) else none)
  else
    if fields.has "oth" then throw (.malformed "oth")
    let key : Rsa.PrivateKey := ⟨n, e, ← numberOf fields "d"⟩
    let factors ← if factorNames.any fields.has then readFactors fields
      else orMalformed "d" key.recover?
    orMalformed "p" (KeyMaterial.rsaPair? key factors)

def curveOf (fields : Fields) : Except Fault Curve :=
  let curve := fields.get? "crv"
  if isText curve "P-256" then .ok .secp256r1
  else if isText curve "P-384" then .ok .secp384r1
  else if isText curve "P-521" then .ok .secp521r1
  else if isText curve "secp256k1" then .ok .secp256k1
  else .error (.malformed "crv")

def readEc (fields : Fields) : Except Fault KeyMaterial := do
  requireKind fields "EC"
  let xs ← bytesOf fields "x"
  let ys ← bytesOf fields "y"
  let curve ← curveOf fields
  if xs.length ≠ curve.size ∨ ys.length ≠ curve.size then throw (.malformed "x")
  let x := Sha2.ofBigEndian xs
  let y := Sha2.ofBigEndian ys
  if !curve.contains x y then throw (.malformed "x")
  if fields.has "d" then
    let ds ← bytesOf fields "d"
    if ds.length ≠ curve.size then throw (.malformed "d")
    orMalformed "d" (KeyMaterial.ecPair? curve (Sha2.ofBigEndian ds) (some (x, y)))
  else pure (.ecPublic curve x y)

def readEdwards (fields : Fields) : Except Fault KeyMaterial := do
  requireKind fields "OKP"
  let long := isText (fields.get? "crv") "Ed448"
  if !long && !isText (fields.get? "crv") "Ed25519" then throw (.malformed "crv")
  let size := if long then 57 else 32
  let point ← bytesOf fields "x"
  if fields.has "d" then
    let seed ← bytesOf fields "d"
    if seed.length ≠ size then throw (.malformed "d")
    let own := if long then Ed448.publicKey seed else Ed25519.publicKey seed
    if point ≠ own then throw (.malformed "x")
    pure (if long then .ed448Private seed else .ed25519Private seed)
  else
    if point.length ≠ size then throw (.malformed "x")
    pure (if long then .ed448Public point else .ed25519Public point)

def readSecret (fields : Fields) : Except Fault KeyMaterial := do
  requireKind fields "oct"
  if !fields.has "k" then throw (.missing "k")
  let bytes ← bytesOf fields "k"
  if bytes.isEmpty then throw (.malformed "k")
  pure (.secret bytes)

def readMaterial (fields : Fields) : Except Fault KeyMaterial := do
  if !isPresent (fields.get? "kty") then throw .kindMissing
  let name ← algorithmName fields
  match Algorithm.ofName? name with
  | none => throw .unknownAlgorithm
  | some .unsecured => throw .unsecured
  | some (.hmac _) => readSecret fields
  | some (.rsa _) | some (.rsaSalted _) => readRsa fields
  | some (.ecdsa _ _) => readEc fields
  | some .edwards => readEdwards fields

def ofJson : Json → Except Fault Jwk
  | .obj fields => (readMaterial fields).map fun material => ⟨fields, material⟩
  | _ => .error .notAnObject

end Jwk
end AssertionGrant
