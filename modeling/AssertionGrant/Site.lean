import AssertionGrant.Context
import AssertionGrant.Journal
import AssertionGrant.Store.Keys
import AssertionGrant.Store.Replay

/-!
The site at which requests are handled: its clocks, its stores, the context of the request at hand,
and what a step leaves behind, the calls that it made to a storage and the entries that it logged.
A step either gives a result or fails; what it did to the site before it failed stays done.

Every call to a storage is recorded, then disturbed if the site says so, and then answered.
-/

namespace AssertionGrant

inductive StorageCall where
  | key (issuer subject keyId : Text)
  | keys (issuer subject : Text)
  | scopes (issuer subject : Text) (keyId : Json)
  | isUsed (jti : Text)
  | mark (jti : Text) (expiry : Instant)

/-- What happens while a storage is called: time passes, the request is cancelled, and the storage
may fail or give an answer of its own. -/
structure Disturbance (α : Type) where
  delay : Option Number := none
  cancels : Bool := false
  outcome : Option (Except Failure α) := none

structure Disturbances where
  key : Option (Disturbance (Option Jwk)) := none
  keys : Option (Disturbance (Option (List (Option Jwk)))) := none
  scopes : Option (Disturbance Json) := none
  isUsed : Option (Disturbance Json) := none
  mark : Option (Disturbance Unit) := none

structure Site where
  now : Instant
  /-- Seconds on the clock that only moves forward. -/
  uptime : Binary64 := .zero
  keys : KeyStore := .memory []
  replays : ReplayStore := .memory 1024 []
  cache : Cache := {}
  disturbances : Disturbances := {}
  /-- The context of the request at hand. -/
  context : Option Context := none
  calls : List StorageCall := []
  log : List LogEntry := []
  /-- The random text that each draw gives. -/
  randomText : Nat → String := fun _ => ""
  /-- How often a random text was drawn. -/
  draws : Nat := 0

abbrev Act := ExceptT Failure (StateM Site)

namespace Site

def passTime (s : Site) (seconds : Number) : Site :=
  { s with uptime := s.uptime.add seconds.toBinary64 }

def cancel (s : Site) : Site := { s with context := s.context.map Context.cancel }

def disturb {α : Type} (s : Site) (d : Disturbance α) : Site :=
  let s := match d.delay with
    | some seconds => s.passTime seconds
    | none => s
  if d.cancels then s.cancel else s

end Site

namespace Act

def note (entry : LogEntry) : Act Unit :=
  modify fun s => { s with log := s.log ++ [entry] }

def orFail {α : Type} : Except Failure α → Act α
  | .ok a => pure a
  | .error f => throw f

def refusing {α : Type} : Except Refusal α → Act α
  | .ok a => pure a
  | .error r => throw (.refusal r)

def faulting {α : Type} : Except Fault α → Act α
  | .ok a => pure a
  | .error f => throw (.fault f)

def checkContext : Act Unit := do
  let s ← get
  match s.context with
  | none => pure ()
  | some c => refusing (c.check s.uptime)

/-- A call to a storage: recorded, disturbed, and answered by `answer` unless the disturbance has an
outcome of its own. -/
def storage {α : Type} (call : StorageCall) (disturbance : Disturbances → Option (Disturbance α))
    (answer : Act α) : Act α := do
  modify fun s => { s with calls := s.calls ++ [call] }
  let s ← get
  match disturbance s.disturbances with
  | none => answer
  | some d =>
    set (s.disturb d)
    match d.outcome with
    | none => answer
    | some (.ok a) => pure a
    | some (.error f) => throw f

variable [Json.Nesting]

def storedKey (issuer subject : Text) (keyId : Json) : Act KeyStore.Stored := do
  let s ← get
  faulting (s.keys.find s.cache (.str issuer) (.str subject) keyId)

/-- What a storage gives as the key registered under an issuer, a subject and an identifier; none
stands for what is no key. -/
def publicKey (issuer subject keyId : Text) : Act (Option Jwk) :=
  storage (.key issuer subject keyId) (·.key) do
    let stored ← storedKey issuer subject (.str keyId)
    pure (some stored.key)

def publicKeys (issuer subject : Text) : Act (Option (List (Option Jwk))) :=
  storage (.keys issuer subject) (·.keys) do
    let s ← get
    let keys ← faulting (s.keys.list s.cache (.str issuer) (.str subject))
    pure (some (keys.map some))

def publicKeyScopes (issuer subject : Text) (keyId : Json) : Act Json :=
  storage (.scopes issuer subject keyId) (·.scopes) do
    let stored ← storedKey issuer subject keyId
    pure (.arr stored.scopes)

def isUsed (jti : Text) : Act Json :=
  storage (.isUsed jti) (·.isUsed) do
    let s ← get
    let (used, replays, cache) ← faulting (s.replays.isUsed s.cache s.now jti)
    set { s with replays, cache }
    pure (.bool used)

def mark (jti : Text) (expiry : Instant) : Act Unit :=
  storage (.mark jti expiry) (·.mark) do
    let s ← get
    let (marked, replays, cache) ← faulting (s.replays.mark s.cache s.now jti expiry)
    set { s with replays, cache }
    if !marked then throw (.refuse .replayed)

end Act
end AssertionGrant
