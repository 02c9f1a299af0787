import AssertionGrant.Json.Value
import AssertionGrant.Scope
import AssertionGrant.Settings
import AssertionGrant.Time.Instant

/-!
A token request, the client that makes it, the session that it fills, and the response that it
gets. What was granted is written on the request; each scope and audience is granted once.
-/

namespace AssertionGrant

structure Lifespan where
  grantType : Text
  tokenType : Text
  span : Span
  deriving DecidableEq, Repr

/-- A registered client. A later lifespan counts before an earlier one of the same kind. -/
structure Client where
  id : Text
  grantTypes : List Text := []
  lifespans : List Lifespan := []
  deriving DecidableEq, Repr

namespace Client

def lifespan? (c : Client) (grantType tokenType : Text) : Option Span :=
  let chosen := c.lifespans.reverse.find? fun l =>
    l.grantType = grantType && l.tokenType = tokenType
  chosen.map (·.span)

end Client

def effectiveLifespan (client : Option Client) (grantType tokenType : Text) (fallback : Span) :
    Span :=
  ((client.bind (·.lifespan? grantType tokenType))).getD fallback

abbrev Expiries := List (Text × Instant)

namespace Expiries

def find? (expiries : Expiries) (tokenType : Text) : Option Instant :=
  (List.find? (·.1 = tokenType) expiries).map (·.2)

def put (tokenType : Text) (expiry : Instant) : Expiries → Expiries
  | [] => [(tokenType, expiry)]
  | e :: rest =>
    if e.1 = tokenType then (tokenType, expiry) :: rest else e :: put tokenType expiry rest

end Expiries

/-- What a request keeps for its token, as far as it can: a subject, which may be one that can be set,
and expiry dates. Setting either may fail. -/
structure Session where
  typeName : Text
  /-- The expiry dates, if the session keeps any. -/
  expiries : Option Expiries
  subject : Text := ""
  takesSubject : Bool
  /-- What the setting of an expiry date fails with, if it fails. -/
  expiryFailure : Option Failure := none
  /-- What the setting of the subject fails with, if it fails. -/
  subjectFailure : Option Failure := none
  deriving DecidableEq, Repr

namespace Session

def bearer (subject : Text) (expiries : Expiries) : Session :=
  { typeName := "JWTBearerSession", expiries, subject, takesSubject := true }

def keepsExpiries (s : Session) : Bool := s.expiries.isSome

def holdsGrant (s : Session) : Bool := s.keepsExpiries && s.takesSubject

def subject? (s : Session) : Option Text := if s.keepsExpiries then some s.subject else none

def expiry? (s : Session) (tokenType : Text) : Option Instant := s.expiries.bind (·.find? tokenType)

def setExpiry (s : Session) (tokenType : Text) (expiry : Instant) : Except Failure Session :=
  match s.expiryFailure with
  | some f => .error f
  | none => .ok { s with expiries := s.expiries.map (·.put tokenType expiry) }

def setSubject (s : Session) (subject : Text) : Except Failure Session :=
  match s.subjectFailure with
  | some f => .error f
  | none => .ok { s with subject }

end Session

def sessionTypeName : Option Session → Text
  | some s => s.typeName
  | none => "NoneType"

structure AccessRequest where
  grantTypes : List Text
  form : List (String × String) := []
  scopes : List Text := []
  audience : List Text := []
  client : Option Client := none
  session : Option Session := none
  grantedScopes : List Text := []
  grantedAudience : List Text := []
  id : Text := ""
  deriving DecidableEq, Repr

namespace AccessRequest

def hasExactly (r : AccessRequest) (grantType : Text) : Bool := r.grantTypes == [grantType]

def included (values : List Text) (value : Text) : List Text :=
  if values.contains value then values else values ++ [value]

def grantScope (r : AccessRequest) (scope : Text) : AccessRequest :=
  { r with grantedScopes := included r.grantedScopes scope }

def grantAudience (r : AccessRequest) (audience : Text) : AccessRequest :=
  { r with grantedAudience := included r.grantedAudience audience }

def parameter? (r : AccessRequest) (name : String) : Option String :=
  (r.form.find? (·.1 = name)).map (·.2)

end AccessRequest

structure TokenResponse where
  accessToken : String := ""
  tokenType : String := ""
  expiresIn : Option Number := none
  scopes : List Text := []
  extra : Fields := []

namespace TokenResponse

/-- The fields of the body; extra ones replace those of the same name. -/
def body (r : TokenResponse) : Fields :=
  let fields : Fields := [("access_token", .str r.accessToken), ("token_type", .str r.tokenType)]
  let fields := match r.expiresIn with
    | some n => fields ++ ([("expires_in", .num n)] : Fields)
    | none => fields
  let fields := if r.scopes.isEmpty then fields
    else fields ++ ([("scope", .str (Scope.join r.scopes))] : Fields)
  r.extra.foldl (fun fields f => fields.set f.1 f.2) fields

end TokenResponse
end AssertionGrant
