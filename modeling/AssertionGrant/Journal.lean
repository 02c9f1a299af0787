import AssertionGrant.Text.Quoted

/-!
What the grant tells its operator: one entry for each event worth knowing, with a level, the part
of the grant that it comes from, and its text.
-/

namespace AssertionGrant

inductive LogLevel where
  | debug
  | info
  | warning
  | error
  deriving DecidableEq, Repr

inductive LogSource where
  | signer
  | singleUse
  | claims
  | grant
  | issuer
  | endpoint
  deriving DecidableEq, Repr

inductive LogEntry where
  | keyMissing (issuer subject keyId why : Text)
  | keyRefuted (issuer subject keyId : Text) (why : Option Text)
  | listingFailed (issuer subject why : Text)
  | keyMatched (issuer subject keyId : Text)
  | lookupFailed (jti why : Text)
  | markFailed (jti why : Text)
  | markRefused (jti : Text)
  | replayed (issuer subject jti : Text)
  | grantFailed (request message : Text) (detail : Option Text)
  | grantRejected (request name : Text) (hint : Option Text)
  | grantAccepted (request : Text) (client : Option Text) (issuer subject : Text)
      (scopes : List Text)
  | signingFailed (why : Text)
  | endpointFailed
  deriving DecidableEq, Repr

namespace LogEntry

def level : LogEntry → LogLevel
  | .keyMissing .. | .keyRefuted .. | .listingFailed .. | .keyMatched .. | .lookupFailed ..
  | .markFailed .. => .debug
  | .markRefused .. | .replayed .. | .grantRejected .. | .grantAccepted .. => .info
  | .grantFailed .. | .signingFailed .. => .warning
  | .endpointFailed => .error

def source : LogEntry → LogSource
  | .keyMissing .. | .keyRefuted .. | .listingFailed .. | .keyMatched .. => .signer
  | .lookupFailed .. | .markFailed .. | .markRefused .. => .singleUse
  | .replayed .. => .claims
  | .grantFailed .. | .grantRejected .. | .grantAccepted .. => .grant
  | .signingFailed .. => .issuer
  | .endpointFailed => .endpoint

def shown (text : Option Text) : Text := text.getD "None"

def parties (issuer subject : Text) : Text := "iss=" ++ issuer ++ " sub=" ++ subject

def message : LogEntry → Text
  | .keyMissing issuer subject keyId why =>
    "no key for " ++ parties issuer subject ++ " kid=" ++ keyId ++ ": " ++ why
  | .keyRefuted issuer subject keyId why =>
    "key kid=" ++ keyId ++ " did not verify assertion for " ++ parties issuer subject ++ ": " ++
      shown why
  | .listingFailed issuer subject why =>
    "key listing failed for " ++ parties issuer subject ++ ": " ++ why
  | .keyMatched issuer subject keyId =>
    "assertion without kid matched key kid=" ++ keyId ++ " for " ++ parties issuer subject
  | .lookupFailed jti why => "replay store lookup failed for jti=" ++ jti ++ ": " ++ why
  | .markFailed jti why => "replay store mark failed for jti=" ++ jti ++ ": " ++ why
  | .markRefused jti => "replay store refused already-marked jti=" ++ jti
  | .replayed issuer subject jti =>
    "jwt-bearer assertion replayed: " ++ parties issuer subject ++ " jti=" ++ jti
  | .grantFailed request message detail =>
    "jwt-bearer grant failed request_id=" ++ request ++ ": " ++ message ++ " (" ++ shown detail ++ ")"
  | .grantRejected request name hint =>
    "jwt-bearer grant rejected request_id=" ++ request ++ " error=" ++ name ++ " hint=" ++ shown hint
  | .grantAccepted request client issuer subject scopes =>
    "jwt-bearer grant accepted request_id=" ++ request ++ " client_id=" ++ shown client ++ " " ++
      parties issuer subject ++ " scopes=" ++ Text.quotedList scopes
  | .signingFailed why => "access token signing failed: " ++ why
  | .endpointFailed => "token endpoint failed unexpectedly"

end LogEntry
end AssertionGrant
