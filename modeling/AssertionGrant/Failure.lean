import AssertionGrant.Json.Value

/-!
What can go wrong while a token is asked for. A refusal has a kind from the OAuth protocol, which
fixes its name, its status and its first sentence, and may have a hint for the caller and a detail
for the operator. A fault is anything else: a storage that fails, a value that is no value.
-/

namespace AssertionGrant

inductive RefusalKind where
  | general
  | unknownRequest
  | unsupportedGrantType
  | invalidRequest
  | unauthorizedClient
  | invalidGrant
  | replayed
  | invalidScope
  | serverError
  deriving DecidableEq, Repr

namespace RefusalKind

def name : RefusalKind → String
  | .general | .serverError => "server_error"
  | .unknownRequest => "request_unknown"
  | .unsupportedGrantType => "unsupported_grant_type"
  | .invalidRequest => "invalid_request"
  | .unauthorizedClient => "unauthorized_client"
  | .invalidGrant => "invalid_grant"
  | .replayed => "jti_known"
  | .invalidScope => "invalid_scope"

def status : RefusalKind → Nat
  | .general | .serverError => 500
  | _ => 400

def description : RefusalKind → String
  | .general | .serverError =>
    "The authorization server encountered an unexpected condition that prevented it from " ++
      "fulfilling the request."
  | .unknownRequest => "The handler is not responsible for this request."
  | .unsupportedGrantType =>
    "The authorization grant type is not supported by the authorization server."
  | .invalidRequest =>
    "The request is missing a required parameter, includes an invalid parameter value, includes " ++
      "a parameter more than once, or is otherwise malformed."
  | .unauthorizedClient => "The client is not authorized to request a token using this method."
  | .invalidGrant =>
    "The provided authorization grant (e.g., authorization code, resource owner credentials) or " ++
      "refresh token is invalid, expired, revoked, does not match the redirection URI used in " ++
      "the authorization request, or was issued to another client."
  | .replayed => "The jti was already used."
  | .invalidScope => "The requested scope is invalid, unknown, or malformed."

end RefusalKind

structure Refusal where
  kind : RefusalKind
  hint : Option Text
  debug : Option Text
  deriving DecidableEq, Repr

namespace Refusal

def bare (kind : RefusalKind) : Refusal := ⟨kind, none, none⟩

def hinted (kind : RefusalKind) (hint : Text) : Refusal := ⟨kind, some hint, none⟩

def message (r : Refusal) : Text :=
  match r.hint with
  | none | some [] => r.kind.description
  | some hint => r.kind.description ++ " " ++ hint

def body (r : Refusal) (withDebug : Bool) : Fields :=
  let fields : Fields := [("error", .str r.kind.name), ("error_description", .str r.message)]
  match withDebug, r.debug with
  | true, some debug =>
    if debug.isEmpty then fields else fields ++ ([("error_debug", .str debug)] : Fields)
  | _, _ => fields

end Refusal

inductive FaultKind where
  | connection
  | runtime
  | value
  | overflow
  | missingName
  | keyNotFound
  | invalidKey
  | unsupportedKey
  | unsupportedAlgorithm
  | notImplemented
  | wrongObject
  | wrongType
  | notJson
  | tooDeep
  | encoding
  | tooLarge
  deriving DecidableEq, Repr

/-- A failure that is no answer of the protocol. -/
structure Fault where
  kind : FaultKind
  text : Text
  deriving DecidableEq, Repr

inductive Failure where
  | refusal (r : Refusal)
  | fault (f : Fault)
  deriving DecidableEq, Repr

namespace Failure

def refuse (kind : RefusalKind) : Failure := .refusal (.bare kind)

def refuseWith (kind : RefusalKind) (hint : Text) : Failure := .refusal (.hinted kind hint)

def internal (debug : Text) : Failure := .refusal ⟨.serverError, none, some debug⟩

def text : Failure → Text
  | .refusal r => r.message
  | .fault f => f.text

def isServerError : Failure → Bool
  | .refusal r => r.kind = .serverError
  | .fault _ => false

end Failure
end AssertionGrant
