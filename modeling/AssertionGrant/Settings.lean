import AssertionGrant.Failure
import AssertionGrant.Text.Blank
import AssertionGrant.Time.Span

/-!
The settings of the grant. `Settings.check` refuses settings under which the grant would have no
token address, no lifetime, or an algorithm that needs no private key to sign.
-/

namespace AssertionGrant

def grantType : Text := "urn:ietf:params:oauth:grant-type:jwt-bearer"

def accessToken : Text := "access_token"

def defaultAlgorithms : List Text :=
  ["RS256", "RS384", "RS512", "PS256", "PS384", "PS512", "ES256", "ES384", "ES512", "EdDSA"]

structure Settings where
  tokenUrl : Text
  skipClientAuth : Bool := false
  jwtIdOptional : Bool := false
  issuedAtOptional : Bool := false
  maxDuration : Span := .ofSeconds 86400
  lifespan : Span := .ofSeconds 3600
  algorithms : List Text := defaultAlgorithms
  matchRequestedAudience : Bool := false
  deriving Repr

namespace Settings

inductive Problem where
  | blankTokenUrl
  | maxDuration (s : Span)
  | lifespan (s : Span)
  | noAlgorithms
  | symmetric
  deriving DecidableEq, Repr

def Problem.message : Problem → String
  | .blankTokenUrl => "token_url cannot be empty"
  | .maxDuration s => "jwt_max_duration must be positive, got " ++ s.text
  | .lifespan s => "access_token_lifespan must be positive, got " ++ s.text
  | .noAlgorithms => "algorithms cannot be empty"
  | .symmetric => "algorithms must only contain asymmetric signing algorithms"

/-- Whether an algorithm signs with a shared secret or not at all. -/
def isSymmetric (name : Text) : Bool :=
  Text.asciiLower name == "none" || ("HS" : Text).isPrefixOf name

def check (s : Settings) : Except Problem Settings :=
  if (Text.trim s.tokenUrl).isEmpty then .error .blankTokenUrl
  else if s.maxDuration.micros ≤ 0 then .error (.maxDuration s.maxDuration)
  else if s.lifespan.micros ≤ 0 then .error (.lifespan s.lifespan)
  else if s.algorithms.isEmpty then .error .noAlgorithms
  else if s.algorithms.any isSymmetric then .error .symmetric
  else .ok s

end Settings
end AssertionGrant
