import AssertionGrant.Audience
import AssertionGrant.Claims.Rules
import AssertionGrant.Issuer
import AssertionGrant.Signer

/-!
The exchange of an assertion for an access token, in two phases. The first passes the request
through a row of gates, of which the last but one marks the assertion's identifier as used, and
then writes the grants on the request. The second issues the token.
-/

namespace AssertionGrant

structure Grant where
  settings : Settings
  issuer : Issuer
  scopes : Scope.Rule := Scope.Strategy.hierarchic
  audience : Audience.Rule := Audience.Strategy.nested

namespace Grant

def owns (r : AccessRequest) : Bool := r.hasExactly grantType

def mayUse (client : Option Client) : Bool :=
  match client with
  | some c => c.grantTypes.contains grantType
  | none => false

def screen (g : Grant) (r : AccessRequest) : Except Failure Unit :=
  if !owns r then .error (.refuse .unknownRequest)
  else if g.settings.skipClientAuth || mayUse r.client then .ok ()
  else .error (.refuseWith .unauthorizedClient
    ("The OAuth 2.0 Client is not allowed to use authorization grant \"" ++ grantType ++ "\"."))

def assertionMissing : Failure :=
  .refuseWith .invalidRequest
    ("The assertion request parameter must be set when using grant_type of '" ++ grantType ++ "'.")

def assertionOf (r : AccessRequest) : Except Failure String :=
  match r.parameter? "assertion" with
  | none | some "" => .error assertionMissing
  | some raw => .ok raw

def requiredText (fields : Fields) (name : String) (described : Text) : Except Refusal Text :=
  match fields.get? name with
  | none | some (.str []) => .error (.hinted .invalidGrant described)
  | some (.str s) => .ok s
  | some _ => .error (.hinted .invalidGrant described)

variable [Json.Nesting]

def issuerAndSubject (t : Compact) : Except Refusal (Text × Text) := do
  let fields ← Assertion.readClaims t
  let issuer ← requiredText fields "iss"
    (Claims.Violation.lead ++ "MUST contain an \"iss\" (issuer) claim.")
  let subject ← requiredText fields "sub"
    (Claims.Violation.lead ++ "MUST contain a \"sub\" (subject) claim.")
  pure (issuer, subject)

def scopesOf (c : Claims) (keyId : Json) : Act Json := do
  Act.checkContext
  tryCatch (Act.publicKeyScopes c.issuer c.subject keyId) fun f =>
    if f.isServerError then throw f else throw (.internal f.text)

def unfitSession (session : Option Session) : Failure :=
  .refuseWith .serverError
    ("Session must implement both OAuthSession and SubjectSession but got type: " ++
      sessionTypeName session)

def sessionOf (r : AccessRequest) : Except Failure Session :=
  match r.session with
  | some s => if s.holdsGrant then .ok s else .error (unfitSession r.session)
  | none => .error (unfitSession r.session)

def verifiedClaims (g : Grant) (raw : String) : Act (Claims × Json × Instant) := do
  let t ← Act.refusing (Assertion.parse raw)
  let (issuer, subject) ← Act.refusing (issuerAndSubject t)
  let (key, payload) ← Signer.find t g.settings.algorithms issuer subject
  let claims ← Act.refusing (Assertion.claimsOf payload)
  let expiresAt ← Claims.validate g.settings claims (← get).now
  pure (claims, if key.id.isTruthy then key.id else .str "", expiresAt)

def authorize (g : Grant) (r : AccessRequest) (c : Claims) (keyId : Json) : Act Unit := do
  let scopes ← scopesOf c keyId
  Act.orFail (Scope.authorize g.scopes scopes r.scopes c.issuer c.subject)
  if g.settings.matchRequestedAudience then
    Act.orFail (g.audience c.audience r.audience)

/-- All gates. Nothing is written on the request; the mark of the identifier is the only trace. -/
def approve (g : Grant) (r : AccessRequest) : Act (Claims × Session) := do
  Act.orFail (g.screen r)
  let raw ← Act.orFail (assertionOf r)
  let (claims, keyId, expiresAt) ← g.verifiedClaims raw
  g.authorize r claims keyId
  if !claims.jwtId.isEmpty then SingleUse.mark claims.jwtId expiresAt
  let session ← Act.orFail (sessionOf r)
  pure (claims, session)

def granting (r : AccessRequest) (c : Claims) : AccessRequest :=
  c.audience.foldl AccessRequest.grantAudience (r.scopes.foldl AccessRequest.grantScope r)

def lifespanFor (g : Grant) (r : AccessRequest) : Span :=
  effectiveLifespan r.client grantType accessToken g.settings.lifespan

def expiryAt (g : Grant) (r : AccessRequest) (now : Instant) : Option Instant :=
  (now.add? (g.lifespanFor r)).bind Instant.roundToSecond?

/-- What a failed request leaves in the log. A request for someone else leaves nothing. -/
def failureEntry (r : AccessRequest) : Failure → Option LogEntry
  | .fault _ => none
  | .refusal e =>
    match e.kind with
    | .unknownRequest => none
    | .serverError => some (.grantFailed r.id e.message e.debug)
    | _ => some (.grantRejected r.id e.kind.name e.hint)

structure Handled where
  request : AccessRequest
  result : Except Failure Unit

/-- Writes the grants on an approved request, and then the expiry and the subject on its session. A
token that would expire beyond the calendar is a fault that comes after the grants. -/
def settle (g : Grant) (r : AccessRequest) (c : Claims) (session : Session) (now : Instant) :
    Handled :=
  let granted := granting r c
  match g.expiryAt r now with
  | none => ⟨granted, .error (.fault Issuer.beyondCalendar)⟩
  | some expiry =>
    match session.setExpiry accessToken expiry with
    | .error f => ⟨granted, .error f⟩
    | .ok dated =>
      match dated.setSubject c.subject with
      | .error f => ⟨{ granted with session := some dated }, .error f⟩
      | .ok session => ⟨{ granted with session := some session }, .ok ()⟩

def noteAll (entries : List LogEntry) : StateM Site Unit :=
  modify fun s => { s with log := s.log ++ entries }

def handle (g : Grant) (r : AccessRequest) : StateM Site Handled := do
  match ← (g.approve r).run with
  | .error f => do
    noteAll (failureEntry r f).toList
    pure ⟨r, .error f⟩
  | .ok (c, session) => do
    let handled := g.settle r c session (← get).now
    match handled.result with
    | .error f => do
      noteAll (failureEntry r f).toList
      pure handled
    | .ok () => do
      noteAll [.grantAccepted r.id (r.client.map (·.id)) c.issuer c.subject
        handled.request.grantedScopes]
      pure handled

def respond (g : Grant) (r : AccessRequest) : Act TokenResponse := do
  Act.orFail (g.screen r)
  g.issuer.issue (g.lifespanFor r) r

end Grant
end AssertionGrant
