import AssertionGrant.Jose.Key
import AssertionGrant.Json.Reader
import AssertionGrant.Json.Writer

/-!
Signed tokens in compact form: header, payload and signature, each in URL-safe letters, with dots
between them. A token is taken apart once; its payload can then be read without any check, or read
after its signature was verified with a key and a list of allowed algorithms.
-/

namespace AssertionGrant

structure Compact where
  input : Bytes
  header : Fields
  payload : Bytes
  signature : Bytes

namespace Compact

inductive Fault where
  | segments
  | headerPadding
  | headerText (f : Json.Fault)
  | headerNotObject
  | payloadPadding
  | payloadNotEmpty
  | signaturePadding
  | keyIdNotText
  | criticalEmpty
  | criticalNotText
  | criticalUnknown (name : Text)
  | criticalMissing (name : Text)
  | detachedUndeclared
  | detached
  | payloadText (f : Json.Fault)
  | payloadNotObject
  | noAlgorithms
  | algorithmMissing
  | algorithmNotAllowed
  | algorithmUnknown
  | key (f : KeyFault)
  | signature

def Fault.message : Fault → Text
  | .segments => "Not enough segments"
  | .headerPadding => "Invalid header padding"
  | .headerText f => "Invalid header string: " ++ f.message
  | .headerNotObject => "Invalid header string: must be a json object"
  | .payloadPadding => "Invalid payload padding"
  | .payloadNotEmpty => "Payload segment must be empty when 'b64' is false."
  | .signaturePadding => "Invalid crypto padding"
  | .keyIdNotText => "Key ID header parameter must be a string"
  | .criticalEmpty => "Invalid 'crit' header: must be a non-empty list"
  | .criticalNotText => "Invalid 'crit' header: values must be strings"
  | .criticalUnknown name => "Unsupported critical extension: " ++ name
  | .criticalMissing name => "Critical extension '" ++ name ++ "' is missing from headers"
  | .detachedUndeclared =>
    "The 'b64' header parameter requires 'b64' to be listed in 'crit'."
  | .detached =>
    "It is required that you pass in a value for the \"detached_payload\" argument to decode a " ++
      "message having the b64 header set to false."
  | .payloadText f => "Invalid payload string: " ++ f.message
  | .payloadNotObject => "Invalid payload string: must be a json object"
  | .noAlgorithms =>
    "It is required that you pass in a value for the \"algorithms\" argument when calling decode()."
  | .algorithmMissing => "Algorithm not specified"
  | .algorithmNotAllowed => "The specified alg value is not allowed"
  | .algorithmUnknown => "Algorithm not supported"
  | .key f => f.message
  | .signature => "Signature verification failed"

def splitLast (cs : List Char) : Option (List Char × List Char) :=
  let back := cs.reverse
  match back.dropWhile (· ≠ '.') with
  | [] => none
  | _ :: lead => some (lead.reverse, (back.takeWhile (· ≠ '.')).reverse)

def splitFirst (cs : List Char) : Option (List Char × List Char) :=
  match cs.dropWhile (· ≠ '.') with
  | [] => none
  | _ :: rest => some (cs.takeWhile (· ≠ '.'), rest)

/-- Whether the header says that the payload travels apart from the token. -/
def isDetached (header : Fields) : Bool :=
  match header.get? "b64" with
  | some (.bool false) => true
  | _ => false

def checkKeyId (header : Fields) : Except Fault Unit :=
  match header.get? "kid" with
  | none | some (.str _) => .ok ()
  | some _ => .error .keyIdNotText

/-- Every extension that the header calls critical is known and present; only one is known. -/
def checkExtensions (header : Fields) : List Json → Except Fault Unit
  | [] => .ok ()
  | .str name :: rest =>
    if name ≠ "b64" then .error (.criticalUnknown name)
    else if !header.has name then .error (.criticalMissing name)
    else checkExtensions header rest
  | _ :: _ => .error .criticalNotText

def checkCritical (header : Fields) : Except Fault Unit :=
  match header.get? "crit" with
  | none => .ok ()
  | some (.arr []) => .error .criticalEmpty
  | some (.arr items) => checkExtensions header items
  | some _ => .error .criticalEmpty

variable [Json.Nesting]

def readHeader (segment : List Char) : Except Fault Fields :=
  match Base64Url.decodeChars segment with
  | none => .error .headerPadding
  | some bytes =>
    match Json.readBytes bytes with
    | .error f => .error (.headerText f)
    | .ok (.obj fields) => .ok fields
    | .ok _ => .error .headerNotObject

def readPayload (header : Fields) (segment : List Char) : Except Fault Bytes :=
  if isDetached header then
    if segment.isEmpty then .ok [] else .error .payloadNotEmpty
  else match Base64Url.decodeChars segment with
    | none => .error .payloadPadding
    | some bytes => .ok bytes

def parse (raw : String) : Except Fault Compact := do
  let some (lead, last) := splitLast raw.toList | throw .segments
  let some (first, middle) := splitFirst lead | throw .segments
  let header ← readHeader first
  let payload ← readPayload header middle
  let some signature := Base64Url.decodeChars last | throw .signaturePadding
  checkKeyId header
  checkCritical header
  pure ⟨Utf.encode (String.ofList lead), header, payload, signature⟩

def checkAttached (t : Compact) : Except Fault Unit :=
  if isDetached t.header then
    match t.header.get? "crit" with
    | some (.arr items) =>
      if items.any fun v => Jwk.isText (some v) "b64" then .error .detached
      else .error .detachedUndeclared
    | _ => .error .detachedUndeclared
  else .ok ()

def payloadFields (t : Compact) : Except Fault Fields :=
  match Json.readBytes t.payload with
  | .error f => .error (.payloadText f)
  | .ok (.obj fields) => .ok fields
  | .ok _ => .error .payloadNotObject

def unverifiedClaims (t : Compact) : Except Fault Fields := do
  t.checkAttached
  t.payloadFields

def algorithm (t : Compact) (allowed : List Text) : Except Fault Algorithm :=
  match t.header.get? "alg" with
  | none => .error .algorithmMissing
  | some (.str name) =>
    if name.isEmpty || !allowed.contains name then .error .algorithmNotAllowed
    else match Algorithm.ofName? name with
      | none => .error .algorithmUnknown
      | some alg => .ok alg
  | some _ => .error .algorithmNotAllowed

def verifiedClaims (t : Compact) (key : KeyMaterial) (allowed : List Text) :
    Except Fault Fields := do
  if allowed.isEmpty then throw .noAlgorithms
  t.checkAttached
  let alg ← t.algorithm allowed
  match alg.verify key t.input t.signature with
  | .error f => throw (.key f)
  | .ok false => throw .signature
  | .ok true => t.payloadFields

def sign (header payload : Json) (alg : Algorithm) (key : KeyMaterial) :
    Except KeyFault String := do
  let head := Base64Url.encode (Utf.encode (header.text Json.canonical))
  let body := Base64Url.encode (Utf.encode (payload.text Json.compact))
  let input := head ++ "." ++ body
  let signature ← alg.sign key (Utf.encode input)
  pure (input ++ "." ++ Base64Url.encode signature)

end Compact
end AssertionGrant
