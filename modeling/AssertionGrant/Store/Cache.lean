import AssertionGrant.Failure
import AssertionGrant.Json.Reader
import AssertionGrant.Time.Instant

/-!
A server shared by several endpoints, which keeps named hashes of texts and single texts that
expire. A text is live strictly before its end; one that has ended is dropped when it is looked at.
While the server is out, every call fails.
-/

namespace AssertionGrant

def Json.Fault.toFault (f : Json.Fault) (kind : FaultKind) : AssertionGrant.Fault :=
  match f.stop.cause with
  | .tooDeep _ => ⟨.tooDeep, f.message⟩
  | .tooLong _ => ⟨.value, f.message⟩
  | _ => ⟨kind, f.message⟩

structure CachedText where
  key : Text
  value : String
  liveUntil : Instant
  seconds : Nat
  deriving DecidableEq, Repr

structure HashField where
  hash : String
  name : String
  value : String
  deriving DecidableEq, Repr

structure Cache where
  /-- The text with which every call fails, while the server is out. -/
  outage : Option Text := none
  /-- Whether the server hands out texts and not bytes. -/
  givesText : Bool := false
  fields : List HashField := []
  texts : List CachedText := []

namespace Cache

def reach (c : Cache) : Except Fault Unit :=
  match c.outage with
  | some text => .error ⟨.connection, text⟩
  | none => .ok ()

/-- The JSON value of what the server hands out. In bytes a mark may tell the encoding, while a text
has none. -/
def readJson [Json.Nesting] (c : Cache) (value : String) : Except Json.Fault Json :=
  if c.givesText then Json.read value else Json.readBytes (Utf.encode value)

def isField (hash name : String) (f : HashField) : Bool := f.hash == hash && f.name == name

def putField (field : HashField) : List HashField → List HashField
  | [] => [field]
  | f :: rest => if isField field.hash field.name f then field :: rest else f :: putField field rest

/-- The name of a field as it travels to the server, which takes no half of a surrogate pair. -/
def fieldName (name : Text) : Except Fault String :=
  match name.toString? with
  | some name => .ok name
  | none => .error ⟨.encoding, Utf.unencodable name⟩

def setField (c : Cache) (hash : String) (name : Text) (value : String) : Except Fault Cache := do
  c.reach
  let name ← fieldName name
  pure { c with fields := putField ⟨hash, name, value⟩ c.fields }

def removeField (c : Cache) (hash : String) (name : Text) : Except Fault Cache := do
  c.reach
  let name ← fieldName name
  pure { c with fields := c.fields.filter fun f => !isField hash name f }

def field? (c : Cache) (hash : String) (name : Text) : Except Fault (Option String) := do
  c.reach
  let name ← fieldName name
  pure ((c.fields.find? (isField hash name)).map (·.value))

def fieldsOf (c : Cache) (hash : String) : Except Fault (List HashField) := do
  c.reach
  pure (c.fields.filter (·.hash = hash))

def isLive (now : Instant) (t : CachedText) : Bool := decide (now.micros < t.liveUntil.micros)

def dropEnded (c : Cache) (now : Instant) (key : Text) : Cache :=
  { c with texts := c.texts.filter fun t => t.key ≠ key || isLive now t }

def exists? (c : Cache) (now : Instant) (key : Text) : Except Fault (Bool × Cache) := do
  c.reach
  let c := c.dropEnded now key
  pure (c.texts.any (·.key = key), c)

/-- Keeps a text for a count of seconds, unless a live one is there; the answer says whether it was
kept. -/
def setFresh (c : Cache) (now : Instant) (key : Text) (value : String) (seconds : Nat) :
    Except Fault (Bool × Cache) := do
  c.reach
  let c := c.dropEnded now key
  if c.texts.any (·.key = key) then pure (false, c)
  else
    let liveUntil : Instant := ⟨now.micros + seconds * 1000000⟩
    pure (true, { c with texts := c.texts ++ [⟨key, value, liveUntil, seconds⟩] })

end Cache
end AssertionGrant
