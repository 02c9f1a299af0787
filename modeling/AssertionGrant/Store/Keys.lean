import AssertionGrant.Assertion
import AssertionGrant.Json.Limits
import AssertionGrant.Json.Shown
import AssertionGrant.Store.Cache

/-!
The keys that are trusted to sign assertions, under the issuer and the subject they may speak for
and their own identifier, with the scopes their holders may request. They are kept in memory, in
the order of registration, or on the shared server, as JSON text in one hash for each issuer and
subject. Issuers, subjects and identifiers are texts as a rule, but any value may stand for them
that can be told from others.
-/

namespace AssertionGrant

structure Registration where
  issuer : Json
  subject : Json
  keyId : Json
  key : Jwk
  scopes : List Json

namespace Registration

def isFor (issuer subject : Json) (r : Registration) : Bool :=
  r.issuer.isSameName issuer && r.subject.isSameName subject

def isAt (issuer subject keyId : Json) (r : Registration) : Bool :=
  r.isFor issuer subject && r.keyId.isSameName keyId

end Registration

abbrev Registry := List Registration

namespace Registry

def add (r : Registration) : Registry → Registry
  | [] => [r]
  | s :: rest => if s.isAt r.issuer r.subject r.keyId then r :: rest else s :: add r rest

def remove (registry : Registry) (issuer subject keyId : Json) : Registry :=
  registry.filter fun r => !r.isAt issuer subject keyId

def find? (registry : Registry) (issuer subject keyId : Json) : Option Registration :=
  List.find? (·.isAt issuer subject keyId) registry

def keysOf (registry : Registry) (issuer subject : Json) : List Jwk :=
  (registry.filter (·.isFor issuer subject)).map (·.key)

end Registry

inductive KeyStore where
  | memory (registry : Registry)
  | shared

namespace KeyStore

def unregistered (issuer subject keyId : Json) : Fault :=
  ⟨.keyNotFound,
   s!"no key registered for issuer={issuer.quoted} subject={subject.quoted} kid={keyId.quoted}"⟩

def withoutKeyId : Fault := ⟨.value, "PyJWK must have key_id populated to be registered"⟩

def corrupt : Fault := ⟨.runtime, "Failed to deserialize stored key"⟩

def notStored : Fault := ⟨.runtime, "Failed to store key in Redis"⟩

def wrongType : Fault := ⟨.wrongType, "not the type of value that was expected"⟩

def checkNames (values : List Json) : Except Fault Unit :=
  if values.any Json.isContainer then .error wrongType else .ok ()

/-- The hash that holds the keys of an issuer and a subject. -/
def hashName (issuer subject : Json) : String :=
  "jwt_bearer:keys:" ++ Json.text Json.spaced (.arr [issuer, subject])

def fieldName? : Json → Option Text
  | .str s => some s
  | .num n => some n.text
  | _ => none

def record (key : Jwk) (scopes : List Json) : Json :=
  .obj [("jwk", .obj key.fields), ("scopes", .arr scopes)]

def unwritten (f : Json.Unwritable) : Fault :=
  match f with
  | .tooDeep => ⟨.tooDeep, f.message⟩
  | .tooLong => ⟨.value, f.message⟩

variable [Json.Nesting]

def storedText (key : Jwk) (scopes : List Json) : Except Fault String :=
  match (record key scopes).unwritable? Json.Nesting.limit with
  | some f => .error (unwritten f)
  | none => .ok ((record key scopes).text Json.spaced)

structure Stored where
  key : Jwk
  scopes : List Json

def ofRecord (f : Fault) : Fault :=
  match f.kind with
  | .missingName | .wrongType | .value => corrupt
  | _ => f

def storedOf (fields : Fields) : Except Fault Stored := do
  let some v := fields.get? "jwk" | throw corrupt
  let key ← (Jwk.ofJson v).mapError fun f => ofRecord f.toFault
  let some scopes := ((fields.get? "scopes").getD (.arr [])).members | throw corrupt
  pure ⟨key, scopes⟩

/-- Reads a stored record. One that is nested too deeply is no record at all but a danger. -/
def readStored (cache : Cache) (text : String) : Except Fault Stored :=
  match cache.readJson text with
  | .ok (.obj fields) => storedOf fields
  | .ok _ => .error corrupt
  | .error f => .error (if f.isTooDeep then f.toFault .tooDeep else corrupt)

def add (store : KeyStore) (cache : Cache) (issuer subject : Json) (key : Jwk) (scopes : Json) :
    Except Fault (KeyStore × Cache) := do
  if !key.id.isTruthy then throw withoutKeyId
  match store with
  | .memory registry =>
    checkNames [issuer, subject, key.id]
    let some scopes := scopes.members | throw wrongType
    pure (.memory (registry.add ⟨issuer, subject, key.id, key, scopes⟩), cache)
  | .shared =>
    let some scopes := scopes.members | throw wrongType
    let text ← storedText key scopes
    let some name := fieldName? key.id | throw notStored
    match cache.setField (hashName issuer subject) name text with
    | .ok cache => pure (.shared, cache)
    | .error _ => throw notStored

/-- Forgets a key. From memory nothing is taken out, whatever the identifier, when nothing is
registered for the issuer and the subject. -/
def remove (store : KeyStore) (cache : Cache) (issuer subject keyId : Json) :
    Except Fault (KeyStore × Cache) := do
  match store with
  | .memory registry =>
    checkNames [issuer, subject]
    if registry.any (·.isFor issuer subject) then checkNames [keyId]
    pure (.memory (registry.remove issuer subject keyId), cache)
  | .shared =>
    let name := (fieldName? keyId).getD ""
    (cache.removeField (hashName issuer subject) name).map fun cache => (.shared, cache)

def find (store : KeyStore) (cache : Cache) (issuer subject keyId : Json) :
    Except Fault Stored := do
  match store with
  | .memory registry =>
    checkNames [issuer, subject, keyId]
    match registry.find? issuer subject keyId with
    | some r => pure ⟨r.key, r.scopes⟩
    | none => throw (unregistered issuer subject keyId)
  | .shared =>
    match ← cache.field? (hashName issuer subject) ((fieldName? keyId).getD "") with
    | some text => readStored cache text
    | none => throw (unregistered issuer subject keyId)

/-- All keys of an issuer and a subject: in the order of registration from memory, in the order of
their identifiers from the shared server. -/
def list (store : KeyStore) (cache : Cache) (issuer subject : Json) : Except Fault (List Jwk) := do
  match store with
  | .memory registry =>
    checkNames [issuer, subject]
    pure (registry.keysOf issuer subject)
  | .shared =>
    let fields ← cache.fieldsOf (hashName issuer subject)
    let sorted := fields.mergeSort fun a b => a.name ≤ b.name
    sorted.mapM fun f => (readStored cache f.value).map (·.key)

end KeyStore
end AssertionGrant
