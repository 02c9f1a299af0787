import AssertionGrant.Store.Cache

/-!
The identifiers of assertions that were accepted, each with the instant after which it may be
forgotten. An identifier is marked only if no live record of it is there, and the check and the
mark are one step. Records are kept in memory, where ended ones are dropped when they are looked at
and swept once a threshold is reached, or on the shared server, which forgets by itself.
-/

namespace AssertionGrant

abbrev Ledger := List (Text × Instant)

namespace Ledger

def find? (ledger : Ledger) (jti : Text) : Option Instant :=
  (List.find? (·.1 = jti) ledger).map (·.2)

def isLive (now : Instant) (r : Text × Instant) : Bool := decide (now.micros < r.2.micros)

def purge (ledger : Ledger) (now : Instant) : Ledger := ledger.filter (isLive now)

def put (jti : Text) (expiry : Instant) : Ledger → Ledger
  | [] => [(jti, expiry)]
  | r :: rest => if r.1 = jti then (jti, expiry) :: rest else r :: put jti expiry rest

def isUsed (ledger : Ledger) (now : Instant) (jti : Text) : Bool × Ledger :=
  match ledger.find? jti with
  | none => (false, ledger)
  | some known =>
    if known.micros ≤ now.micros then (false, ledger.filter (·.1 ≠ jti)) else (true, ledger)

/-- Records an identifier, unless it has a live record; the answer says whether it was recorded.
Ended records are swept first when the ledger holds `threshold` of them. -/
def mark (ledger : Ledger) (now : Instant) (threshold : Int) (jti : Text) (expiry : Instant) :
    Bool × Ledger :=
  let swept := if threshold ≤ ledger.length then ledger.purge now else ledger
  match swept.find? jti with
  | some known =>
    if now.micros < known.micros then (false, swept) else (true, swept.put jti expiry)
  | none => (true, swept.put jti expiry)

end Ledger

inductive ReplayStore where
  | memory (threshold : Int) (ledger : Ledger)
  | shared

namespace ReplayStore

def cacheKey (jti : Text) : Text := "jwt_bearer:jti:" ++ jti

/-- The whole seconds, at least one, for which the shared server keeps a record. -/
def keepSeconds (now expiry : Instant) : Nat :=
  (max 1 (((expiry.since now).seconds.ceil?).getD 1)).toNat

def isUsed (store : ReplayStore) (cache : Cache) (now : Instant) (jti : Text) :
    Except Fault (Bool × ReplayStore × Cache) :=
  match store with
  | .memory threshold ledger =>
    let (used, ledger) := ledger.isUsed now jti
    .ok (used, .memory threshold ledger, cache)
  | .shared =>
    match cache.exists? now (cacheKey jti) with
    | .ok (used, cache) => .ok (used, .shared, cache)
    | .error _ => .error ⟨.runtime, "Failed to read replay record from Redis"⟩

/-- Marks an identifier; the answer says whether it was marked, and `false` means that it has a
live record already. -/
def mark (store : ReplayStore) (cache : Cache) (now : Instant) (jti : Text) (expiry : Instant) :
    Except Fault (Bool × ReplayStore × Cache) :=
  match store with
  | .memory threshold ledger =>
    let (marked, ledger) := ledger.mark now threshold jti expiry
    .ok (marked, .memory threshold ledger, cache)
  | .shared =>
    match cache.setFresh now (cacheKey jti) expiry.offsetText (keepSeconds now expiry) with
    | .ok (marked, cache) => .ok (marked, .shared, cache)
    | .error _ => .error ⟨.runtime, "Failed to write replay record to Redis"⟩

end ReplayStore
end AssertionGrant
