import AssertionGrant.Claims
import AssertionGrant.Settings
import AssertionGrant.SingleUse

/-!
The rules that verified claims have to keep, in a fixed order of which the first broken one is
reported. All but the last need no storage, so an assertion that breaks one costs no look-up of its
identifier.
-/

namespace AssertionGrant.Claims

inductive Violation where
  | noAudience
  | otherAudience (tokenUrl : Text)
  | noExpiry
  | expired
  | notYet (since : Instant)
  | noIssueDate
  | tooLong (expiresAt issuedAt : Instant)
  | noJwtId
  deriving DecidableEq, Repr

namespace Violation

def lead : String := "The JWT in \"assertion\" request parameter "

def message : Violation → Text
  | .noAudience => lead ++ "MUST contain an \"aud\" (audience) claim."
  | .otherAudience tokenUrl =>
    lead ++ "MUST contain an \"aud\" (audience) claim containing a value \"" ++ tokenUrl ++
      "\" that identifies the authorization server as an intended audience."
  | .noExpiry => lead ++ "MUST contain an \"exp\" (expiration time) claim."
  | .expired => lead ++ "expired."
  | .notYet since =>
    lead ++ "contains an \"nbf\" (not before) claim, that identifies the time '" ++
      since.plainText ++ "' before which the token MUST NOT be accepted."
  | .noIssueDate => lead ++ "MUST contain an \"iat\" (issued at) claim."
  | .tooLong expiresAt issuedAt =>
    lead ++ "contains an \"exp\" (expiration time) claim with value \"" ++ expiresAt.plainText ++
      "\" that is unreasonably far in the future, considering token issued at \"" ++
      issuedAt.plainText ++ "\"."
  | .noJwtId => lead ++ "MUST contain an \"jti\" (JWT ID) claim."

def toRefusal (v : Violation) : Refusal := .hinted .invalidGrant v.message

end Violation

def checkAudience (s : Settings) (c : Claims) : Except Violation Unit :=
  if c.audience.isEmpty then .error .noAudience
  else if c.audience.contains s.tokenUrl then .ok ()
  else .error (.otherAudience s.tokenUrl)

def checkDates (c : Claims) (now : Instant) : Except Violation Instant :=
  match c.expiresAt with
  | none => .error .noExpiry
  | some expiresAt =>
    if expiresAt.micros ≤ now.micros then .error .expired
    else match c.notBefore with
      | none => .ok expiresAt
      | some notBefore =>
        if now.micros ≤ notBefore.micros then .error (.notYet notBefore) else .ok expiresAt

/-- The time from issue, or from now if no issue date is given, to expiry is within bounds. -/
def checkLifetime (s : Settings) (c : Claims) (now expiresAt : Instant) : Except Violation Unit :=
  if !s.issuedAtOptional && c.issuedAt.isNone then .error .noIssueDate
  else
    let issuedAt := c.issuedAt.getD now
    if s.maxDuration.micros < (expiresAt.since issuedAt).micros then
      .error (.tooLong expiresAt issuedAt)
    else .ok ()

def checkJwtId (s : Settings) (c : Claims) : Except Violation Unit :=
  if !s.jwtIdOptional && c.jwtId.isEmpty then .error .noJwtId else .ok ()

def checkStateless (s : Settings) (c : Claims) (now : Instant) : Except Violation Instant := do
  checkAudience s c
  let expiresAt ← checkDates c now
  checkLifetime s c now expiresAt
  checkJwtId s c
  pure expiresAt

def validate (s : Settings) (c : Claims) (now : Instant) : Act Instant := do
  let expiresAt ← Act.refusing ((checkStateless s c now).mapError Violation.toRefusal)
  if !c.jwtId.isEmpty then
    Act.checkContext
    if (← SingleUse.isUsed c.jwtId).isTruthy then
      Act.note (.replayed c.issuer c.subject c.jwtId)
      throw (.refuse .replayed)
  pure expiresAt

end AssertionGrant.Claims
