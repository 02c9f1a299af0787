import AssertionGrant.Data.Der
import AssertionGrant.Data.Pem
import AssertionGrant.Jose.Material

/-!
Keys in labelled sections of text. A section holds a key in one of the binary forms that its label
names: with the family of the key in front, or in the form of one family alone.
-/

namespace AssertionGrant.KeyFile

open Crypto

inductive Fault where
  | pem (f : Pem.Fault)
  | noPrivateKey
  | der (f : Der.Fault)
  | invalidKey
  | invalidPair
  | explicitCurve
  | wrongLabel
  /-- The key can be read with a password only. -/
  | locked
  | lockIncomplete
  /-- The family of the key, or its curve, is not known. -/
  | unknownFamily
  deriving DecidableEq, Repr

def Fault.message : Fault → String
  | .pem f =>
    "Unable to load PEM file. See https://cryptography.io/en/latest/faq/" ++
      "#why-can-t-i-import-my-pem-file for more details. " ++ f.message
  | .noPrivateKey =>
    "Valid PEM but no BEGIN/END delimiters for a private key found. Are you sure this is a " ++
      "private key?"
  | .der f =>
    "Could not deserialize key data. The data may be in an incorrect format, it may be " ++
      "encrypted with an unsupported algorithm, or it may be an unsupported key type " ++
      "(e.g. EC curves with explicit parameters). Details: " ++ f.message
  | .invalidKey => "Invalid key"
  | .invalidPair => "Invalid private key"
  | .explicitCurve => "ECDSA keys with explicit parameters are unsupported at this time"
  | .wrongLabel => "Incorrect PEM delimiter for key type."
  | .locked => "Password was not given but private key is encrypted"
  | .lockIncomplete => "Encrypted PEM doesn't have a DEK-Info header."
  | .unknownFamily => "the family of the key is not known"

def Fault.isOfText : Fault → Bool
  | .locked | .unknownFamily => false
  | _ => true

inductive Family where
  | rsa
  | curve (c : Curve)
  | namedCurve (name : String)
  | ed25519
  | ed448
  | foreign

def curves : List (List Nat × Family) :=
  [([1, 2, 840, 10045, 3, 1, 7], .curve .secp256r1),
   ([1, 3, 132, 0, 34], .curve .secp384r1),
   ([1, 3, 132, 0, 35], .curve .secp521r1),
   ([1, 3, 132, 0, 10], .curve .secp256k1),
   ([1, 2, 840, 10045, 3, 1, 1], .namedCurve "secp192r1"),
   ([1, 3, 132, 0, 33], .namedCurve "secp224r1"),
   ([1, 3, 36, 3, 3, 2, 8, 1, 1, 7], .namedCurve "brainpoolP256r1"),
   ([1, 3, 36, 3, 3, 2, 8, 1, 1, 11], .namedCurve "brainpoolP384r1"),
   ([1, 3, 36, 3, 3, 2, 8, 1, 1, 13], .namedCurve "brainpoolP512r1")]

def bareFamilies : List (List Nat × Family) :=
  [([1, 3, 101, 112], .ed25519), ([1, 3, 101, 113], .ed448), ([1, 3, 101, 110], .foreign),
   ([1, 3, 101, 111], .foreign)]

def looseFamilies : List (List Nat × Family) :=
  [([1, 2, 840, 113549, 1, 1, 10], .rsa), ([1, 2, 840, 10040, 4, 1], .foreign),
   ([1, 2, 840, 113549, 1, 3, 1], .foreign), ([1, 2, 840, 10046, 2, 1], .foreign)]

def look (table : List (List Nat × Family)) (name : List Nat) : Option Family :=
  (table.find? (·.1 == name)).map (·.2)

def ofDer {α : Type} (r : Except Der.Fault α) : Except Fault α := r.mapError .der

def readCurve (bytes : Bytes) : Except Fault (Family × Bytes) := do
  let ((tag, content), rest) ← ofDer (Der.readAny bytes)
  if tag = Der.nameTag then
    let name ← ofDer (Der.nameOf content)
    match look curves name with
    | some family => pure (family, rest)
    | none => throw .unknownFamily
  else if tag = Der.nullTag ∨ tag = Der.sequenceTag then throw .explicitCurve
  else throw (.der (.unexpected tag))

def readFamily (content : Bytes) : Except Fault Family := do
  let (name, rest) ← ofDer (Der.readName content)
  if name == [1, 2, 840, 113549, 1, 1, 1] then
    let (_, rest) ← ofDer (Der.readOptional Der.nullTag rest)
    ofDer (Der.finish rest)
    pure .rsa
  else if name == [1, 2, 840, 10045, 2, 1] then
    let (family, rest) ← readCurve rest
    ofDer (Der.finish rest)
    pure family
  else match look bareFamilies name, look looseFamilies name with
    | some family, _ => do
      ofDer (Der.finish rest)
      pure family
    | none, some family => pure family
    | none, none => throw .unknownFamily

def readRsaPublic (bytes : Bytes) : Except Fault KeyMaterial := do
  let content ← ofDer (Der.readOnly Der.sequenceTag bytes)
  let (n, rest) ← ofDer (Der.readNatural content)
  let (e, rest) ← ofDer (Der.readNatural rest)
  ofDer (Der.finish rest)
  pure (.rsaPublic ⟨n, e⟩)

def readRsaPrivate (bytes : Bytes) : Except Fault KeyMaterial := do
  let content ← ofDer (Der.readOnly Der.sequenceTag bytes)
  let (version, rest) ← ofDer (Der.readVersion content)
  let (n, rest) ← ofDer (Der.readNatural rest)
  let (e, rest) ← ofDer (Der.readNatural rest)
  let (d, rest) ← ofDer (Der.readNatural rest)
  let (p, rest) ← ofDer (Der.readNatural rest)
  let (q, rest) ← ofDer (Der.readNatural rest)
  let (secretP, rest) ← ofDer (Der.readNatural rest)
  let (secretQ, rest) ← ofDer (Der.readNatural rest)
  let (inverse, rest) ← ofDer (Der.readNatural rest)
  let (_, rest) ← ofDer (Der.readOptional Der.sequenceTag rest)
  ofDer (Der.finish rest)
  if version ≠ 0 then throw .invalidKey
  match KeyMaterial.rsaPair? ⟨n, e, d⟩ ⟨p, q, secretP, secretQ, inverse⟩ with
  | some key => pure key
  | none => throw .invalidPair

def readEcPublic (c : Curve) (bytes : Bytes) : Except Fault KeyMaterial :=
  match c.pointOf? bytes with
  | some (x, y) => .ok (.ecPublic c x y)
  | none => .error .invalidKey

def readEcPrivate (given : Option Family) (bytes : Bytes) : Except Fault KeyMaterial := do
  let content ← ofDer (Der.readOnly Der.sequenceTag bytes)
  let (version, rest) ← ofDer (Der.readVersion content)
  let (secret, rest) ← ofDer (Der.read Der.octetsTag rest)
  let (parameters, rest) ← ofDer (Der.readOptional (Der.choiceTag 0) rest)
  let (packed, rest) ← ofDer (Der.readOptional (Der.choiceTag 1) rest)
  ofDer (Der.finish rest)
  let point ← match packed with
    | none => pure none
    | some packed => do
      let (point, rest) ← ofDer (Der.readBits packed)
      ofDer (Der.finish rest)
      pure (some point)
  if version ≠ 1 then throw .invalidKey
  let family ← match given, parameters with
    | some family, _ => pure family
    | none, some parameters => do
      let (family, rest) ← readCurve parameters
      ofDer (Der.finish rest)
      pure family
    | none, none => throw .invalidKey
  match family with
  | .curve c => do
    let point ← match point with
      | none => pure none
      | some bytes =>
        match c.pointOf? bytes with
        | some p => pure (some p)
        | none => throw .invalidKey
    match KeyMaterial.ecPair? c (Der.ofBigEndian secret) point with
    | some key => pure key
    | none => throw .invalidKey
  | .namedCurve name => pure (.ecNamed name)
  | _ => throw .invalidKey

def readSeed (size : Nat) (make : Bytes → KeyMaterial) (bytes : Bytes) :
    Except Fault KeyMaterial := do
  let seed ← ofDer (Der.readOnly Der.octetsTag bytes)
  if seed.length = size then pure (make seed) else throw .invalidKey

def readPublic (bytes : Bytes) : Except Fault KeyMaterial := do
  let content ← ofDer (Der.readOnly Der.sequenceTag bytes)
  let (head, rest) ← ofDer (Der.read Der.sequenceTag content)
  let family ← readFamily head
  let (bits, rest) ← ofDer (Der.readBits rest)
  ofDer (Der.finish rest)
  match family with
  | .rsa => readRsaPublic bits
  | .curve c => readEcPublic c bits
  | .namedCurve name => pure (.ecNamed name)
  | .ed25519 => if bits.length = 32 then pure (.ed25519Public bits) else throw .invalidKey
  | .ed448 => if bits.length = 57 then pure (.ed448Public bits) else throw .invalidKey
  | .foreign => pure .foreign

def readPrivate (bytes : Bytes) : Except Fault KeyMaterial := do
  let content ← ofDer (Der.readOnly Der.sequenceTag bytes)
  let (version, rest) ← ofDer (Der.readVersion content)
  let (head, rest) ← ofDer (Der.read Der.sequenceTag rest)
  let family ← readFamily head
  let (inner, rest) ← ofDer (Der.read Der.octetsTag rest)
  let (_, rest) ← ofDer (Der.readOptional (Der.choiceTag 0) rest)
  ofDer (Der.finish rest)
  if version ≠ 0 then throw .invalidKey
  match family with
  | .rsa => readRsaPrivate inner
  | .curve c => readEcPrivate (some (.curve c)) inner
  | .namedCurve name => pure (.ecNamed name)
  | .ed25519 => readSeed 32 .ed25519Private inner
  | .ed448 => readSeed 57 .ed448Private inner
  | .foreign => pure .foreign

/-- A private key under a password, of which no more is read than its outer form. -/
def readLocked (bytes : Bytes) : Except Fault KeyMaterial := do
  let content ← ofDer (Der.readOnly Der.sequenceTag bytes)
  let (_, rest) ← ofDer (Der.read Der.sequenceTag content)
  let (_, rest) ← ofDer (Der.read Der.octetsTag rest)
  ofDer (Der.finish rest)
  throw .locked

def privateForms : List (String × (Bytes → Except Fault KeyMaterial)) :=
  [("PRIVATE KEY", readPrivate), ("ENCRYPTED PRIVATE KEY", readLocked),
   ("RSA PRIVATE KEY", readRsaPrivate), ("EC PRIVATE KEY", readEcPrivate none),
   ("DSA PRIVATE KEY", fun _ => .ok .foreign)]

def loadPrivate (text : Bytes) : Except Fault KeyMaterial := do
  let found ← (Pem.sections text).mapError .pem
  let known := found.findSome? fun s =>
    (privateForms.find? (·.1 = s.label)).map fun form => (s, form.2)
  match known with
  | none => throw .noPrivateKey
  | some (s, reader) =>
    if s.header? "Proc-Type" = some "4,ENCRYPTED" then
      throw (if (s.header? "DEK-Info").isSome then .locked else .lockIncomplete)
    reader s.content

/-- The public key that a text begins with. A label of one family may stand over the form that has
the family in front. -/
def loadPublic (text : Bytes) : Except Fault KeyMaterial := do
  let s ← (Pem.first text).mapError .pem
  if s.label = "PUBLIC KEY" then readPublic s.content
  else if s.label = "RSA PUBLIC KEY" then
    match readRsaPublic s.content, readPublic s.content with
    | .ok key, _ | .error _, .ok key@(.rsaPublic _) => pure key
    | .error _, .ok _ => throw .wrongLabel
    | .error f, .error _ => throw f
  else throw (.pem .framing)

end AssertionGrant.KeyFile
