import AssertionGrant.Jose.KeyFile
import AssertionGrant.Jose.Secret

/-!
Signature algorithms by their registered names, and which keys an algorithm takes. A text or a
secret is read as the key that it holds first. A key that an algorithm does not take is refused
before any signature is looked at.
-/

namespace AssertionGrant

open Crypto

inductive Algorithm where
  | unsecured
  | hmac (h : Hash)
  | rsa (h : Hash)
  | rsaSalted (h : Hash)
  | ecdsa (h : Hash) (curve : Curve)
  | edwards
  deriving DecidableEq, Repr

namespace Algorithm

def registry : List (Text × Algorithm) :=
  [("none", .unsecured),
   ("HS256", .hmac .sha256), ("HS384", .hmac .sha384), ("HS512", .hmac .sha512),
   ("RS256", .rsa .sha256), ("RS384", .rsa .sha384), ("RS512", .rsa .sha512),
   ("ES256", .ecdsa .sha256 .secp256r1), ("ES256K", .ecdsa .sha256 .secp256k1),
   ("ES384", .ecdsa .sha384 .secp384r1), ("ES521", .ecdsa .sha512 .secp521r1),
   ("ES512", .ecdsa .sha512 .secp521r1),
   ("PS256", .rsaSalted .sha256), ("PS384", .rsaSalted .sha384), ("PS512", .rsaSalted .sha512),
   ("EdDSA", .edwards)]

def ofName? (name : Text) : Option Algorithm :=
  (registry.find? (·.1 = name)).map (·.2)

end Algorithm

inductive KeyFault where
  | expectingPem
  | unparsable
  | notText
  | secret (f : Secret.Fault)
  | keyForUnsecured
  | wrongCurve (actual expected : String)
  | wrongFamily
  | neitherHalf
  | encoding (f : Utf.Fault)
  | file (f : KeyFile.Fault)
  | line (f : KeyLine.Fault)
  | tooShort
  /-- A public key cannot sign, and a private one of this family cannot verify. -/
  | wrongHalf

def KeyFault.message : KeyFault → String
  | .expectingPem => "Expecting a PEM-formatted key."
  | .unparsable => "Could not parse the provided public key."
  | .notText => "Expected a string or bytes value"
  | .secret f => f.message
  | .keyForUnsecured => "When alg = \"none\", key value must be None."
  | .wrongCurve actual expected =>
    s!"The key's curve '{actual}' does not match the expected curve '{expected}' for this algorithm"
  | .wrongFamily => "Expected one of the kinds of key that the algorithm takes"
  | .neitherHalf => "Not a public or private key"
  | .encoding f => f.message
  | .file f => f.message
  | .line f => f.message
  | .tooShort =>
    "Digest or salt length too long for key size. Use a larger key or shorter salt length if " ++
      "you are specifying a PSS salt"
  | .wrongHalf => "the key cannot be used for this operation"

namespace Algorithm

def bytesOf? : KeyMaterial → Option Bytes
  | .secret bytes => some bytes
  | .text s => some (Utf.encode s)
  | _ => none

def secretOf [Json.Nesting] (key : KeyMaterial) : Except KeyFault Bytes :=
  match bytesOf? key with
  | some bytes => (Secret.check bytes).mapError .secret
  | none => .error .notText

/-- Whether a fault of a line lies in its text, so that the text may still be a key of another
form. -/
def isOfText : KeyLine.Fault → Bool
  | .kind _ | .packed => false
  | _ => true

def readRsa (text : Bytes) : Except KeyFault KeyMaterial :=
  let publicKey := match KeyFile.loadPublic text with
    | .ok key => .ok key
    | .error _ => .error .unparsable
  if (Utf.encode "ssh-rsa").isPrefixOf text then
    match KeyLine.load text with
    | .ok key => .ok key
    | .error f => if isOfText f then publicKey else .error (.line f)
  else match KeyFile.loadPrivate text with
    | .ok key => .ok key
    | .error f => if f.isOfText then publicKey else .error (.file f)

def readEc (text : Bytes) : Except KeyFault KeyMaterial :=
  let privateKey := (KeyFile.loadPrivate text).mapError .file
  if (Utf.encode "ecdsa-sha2-").isPrefixOf text then
    match KeyLine.load text with
    | .ok key => .ok key
    | .error f => if isOfText f then privateKey else .error (.line f)
  else match KeyFile.loadPublic text with
    | .ok key => .ok key
    | .error f => if f.isOfText then privateKey else .error (.file f)

def readEdwards (text : Bytes) : Except KeyFault KeyMaterial := do
  let _ ← (Utf.decodeUtf8 text).mapError .encoding
  if Splitting.contains (Utf.encode "-----BEGIN PUBLIC") text then
    (KeyFile.loadPublic text).mapError .file
  else if Splitting.contains (Utf.encode "-----BEGIN PRIVATE") text then
    (KeyFile.loadPrivate text).mapError .file
  else if (Utf.encode "ssh-").isPrefixOf text then (KeyLine.load text).mapError .line
  else throw .neitherHalf

def keyFor (key : KeyMaterial) (reader : Bytes → Except KeyFault KeyMaterial)
    (fits : KeyMaterial → Bool) (otherwise : KeyFault) : Except KeyFault KeyMaterial :=
  match bytesOf? key with
  | none => if fits key then .ok key else .error otherwise
  | some text => do
    let key ← reader text
    if fits key then pure key else throw .wrongFamily

def isRsa : KeyMaterial → Bool
  | .rsaPublic _ | .rsaPrivate _ => true
  | _ => false

def isEc : KeyMaterial → Bool
  | .ecPublic .. | .ecPrivate .. | .ecNamed _ => true
  | _ => false

def isEdwards : KeyMaterial → Bool
  | .ed25519Public _ | .ed25519Private _ | .ed448Public _ | .ed448Private _ => true
  | _ => false

def onCurve (curve : Curve) (key : KeyMaterial) : Except KeyFault KeyMaterial :=
  let actual := match key with
    | .ecPublic actual _ _ | .ecPrivate actual _ _ _ => actual.name
    | .ecNamed name => name
    | _ => ""
  if actual = curve.name then .ok key else .error (.wrongCurve actual curve.name)

variable [Json.Nesting]

/-- The key that an algorithm works with. -/
def prepare (alg : Algorithm) (key : KeyMaterial) : Except KeyFault KeyMaterial :=
  match alg with
  | .unsecured => if key = .absent ∨ key = .text "" then .ok .absent else .error .keyForUnsecured
  | .hmac _ => (secretOf key).map .secret
  | .rsa _ | .rsaSalted _ => keyFor key readRsa isRsa .expectingPem
  | .ecdsa _ curve => do onCurve curve (← keyFor key readEc isEc .expectingPem)
  | .edwards => keyFor key readEdwards isEdwards .wrongFamily

def verify (alg : Algorithm) (key : KeyMaterial) (message signature : Bytes) :
    Except KeyFault Bool := do
  match alg, ← alg.prepare key with
  | .hmac h, .secret bytes => pure (h.keyed bytes message == signature)
  | .rsa h, .rsaPublic key => pure (Rsa.verifyFramed h key message signature)
  | .rsaSalted h, .rsaPublic key => pure (Rsa.verifySalted h key message signature)
  | .rsa _, .rsaPrivate _ | .rsaSalted _, .rsaPrivate _ => throw .wrongHalf
  | .ecdsa h curve, .ecPublic _ x y | .ecdsa h curve, .ecPrivate _ x y _ =>
    pure (curve.verify h x y message signature)
  | .edwards, .ed25519Public point => pure (Ed25519.verify point message signature)
  | .edwards, .ed25519Private seed =>
    pure (Ed25519.verify (Ed25519.publicKey seed) message signature)
  | .edwards, .ed448Public point => pure (Ed448.verify point message signature)
  | .edwards, .ed448Private seed => pure (Ed448.verify (Ed448.publicKey seed) message signature)
  | _, _ => pure false

def sign (alg : Algorithm) (key : KeyMaterial) (message : Bytes) : Except KeyFault Bytes := do
  match alg, ← alg.prepare key with
  | .unsecured, _ => pure []
  | .hmac h, .secret bytes => pure (h.keyed bytes message)
  | .rsa h, .rsaPrivate key =>
    match Rsa.signFramed? h key message with
    | some signature => pure signature
    | none => throw .tooShort
  | .rsaSalted h, .rsaPrivate key =>
    match Rsa.signSalted? h key message with
    | some signature => pure signature
    | none => throw .tooShort
  | .ecdsa h curve, .ecPrivate _ _ _ secret => pure (curve.sign h secret message)
  | .edwards, .ed25519Private seed => pure (Ed25519.sign seed message)
  | .edwards, .ed448Private seed => pure (Ed448.sign seed message)
  | _, _ => throw .wrongHalf

end Algorithm
end AssertionGrant
