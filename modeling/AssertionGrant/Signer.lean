import AssertionGrant.Site

/-!
Finding the registered key that signed an assertion. With a key identifier in the header exactly
that key is fetched and tried; without one every key of the issuer and the subject is tried in the
order of the storage, and the first that verifies is taken. Whatever goes wrong, short of a server
error, ends in the same refusal, whose hint tells nothing of the cause.
-/

namespace AssertionGrant.Signer

def notFound (issuer subject : Text) (debug : Option Text) : Refusal :=
  ⟨.invalidGrant,
   some ("No public JWK was registered for issuer \"" ++ issuer ++ "\" and subject \"" ++
     subject ++ "\", and public key is required to check signature of JWT in \"assertion\" " ++
     "request parameter."),
   debug⟩

/-- A failed look-up; only a server error passes. -/
def lookupFailed {α : Type} (issuer subject : Text) (entry : Text → LogEntry) (f : Failure) :
    Act α := do
  if f.isServerError then throw f
  Act.note (entry f.text)
  throw (.refusal (notFound issuer subject (some f.text)))

def notKey : Fault := ⟨.wrongObject, "the storage gave something that is no key"⟩

def notKeys : Fault := ⟨.wrongType, "the storage gave something that is no list of keys"⟩

variable [Json.Nesting]

def findNamed (t : Compact) (allowed : List Text) (issuer subject keyId : Text) :
    Act (Jwk × Fields) := do
  Act.checkContext
  let given ← tryCatch (Act.publicKey issuer subject keyId)
    (lookupFailed issuer subject (.keyMissing issuer subject keyId))
  Act.checkContext
  let some key := given | throw (.fault notKey)
  match Assertion.verify t key.material allowed with
  | .ok payload => pure (key, payload)
  | .error (.refusal r) => do
    Act.note (.keyRefuted issuer subject keyId r.debug)
    throw (.refusal (notFound issuer subject r.debug))
  | .error (.fault f) => throw (.fault f)

def firstVerifying (t : Compact) (allowed : List Text) (issuer subject : Text) :
    List (Option Jwk) → Act (Jwk × Fields)
  | [] => throw (.refusal (notFound issuer subject none))
  | given :: rest => do
    Act.checkContext
    let some key := given | throw (.fault notKey)
    match Assertion.verify t key.material allowed with
    | .ok payload => do
      Act.note (.keyMatched issuer subject key.id.shown)
      pure (key, payload)
    | .error (.refusal _) => firstVerifying t allowed issuer subject rest
    | .error (.fault f) => throw (.fault f)

def find (t : Compact) (allowed : List Text) (issuer subject : Text) :
    Act (Jwk × Fields) := do
  let keyId := Assertion.keyId t
  if !keyId.isEmpty then findNamed t allowed issuer subject keyId
  else do
    Act.checkContext
    let given ← tryCatch (Act.publicKeys issuer subject)
      (lookupFailed issuer subject (.listingFailed issuer subject))
    let some keys := given | throw (.fault notKeys)
    firstVerifying t allowed issuer subject keys

end AssertionGrant.Signer
