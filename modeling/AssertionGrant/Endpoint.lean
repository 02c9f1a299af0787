import AssertionGrant.Grant
import AssertionGrant.Request.OfForm
import AssertionGrant.Routing

/-!
The token endpoint: a form comes in, both phases of the grant run, and a token or an error goes out
as JSON that no cache may keep. An error is answered in its own words; anything unforeseen is logged
and answered as a server error without any detail.
-/

namespace AssertionGrant

structure Endpoint where
  grant : Grant
  /-- The client that some earlier layer authenticated. -/
  client : HttpRequest → Except Failure (Option Client) := fun _ => .ok none
  /-- The session that a request starts with. -/
  session : Option Session := some (.bearer "" [])
  /-- What the making of that session fails with, if it fails. -/
  sessionFailure : Option Failure := none
  timeout : Option Number := none
  exposeDebug : Bool := false

namespace Endpoint

def tooLong : Failure := .fault ⟨.tooLarge, "the form is too long"⟩

def errorFor : Failure → Refusal
  | .refusal r => if r.kind = .unknownRequest then .bare .unsupportedGrantType else r
  | .fault _ => .bare .serverError

def errorResponse (e : Endpoint) (f : Failure) : HttpResponse :=
  let r := errorFor f
  .uncached r.kind.status (r.body e.exposeDebug)

def newSession (e : Endpoint) : Except Failure (Option Session) :=
  match e.sessionFailure with
  | some f => .error f
  | none => .ok e.session

def requestOf (e : Endpoint) (id : Text) (r : HttpRequest) : Except Failure AccessRequest := do
  let client ← e.client r
  let session ← e.newSession
  match r.form? with
  | none => throw tooLong
  | some form => (AccessRequest.ofForm form client session id).mapError .refusal

variable [Json.Nesting]

def exchange (e : Endpoint) (id : Text) (r : HttpRequest) : Act TokenResponse := do
  let request ← Act.orFail (e.requestOf id r)
  let handled ← e.grant.handle request
  Act.orFail handled.result
  e.grant.respond handled.request

def answer (e : Endpoint) (id : Text) (r : HttpRequest) : StateM Site HttpResponse := do
  match ← (e.exchange id r).run with
  | .ok response => pure (.uncached 200 response.body)
  | .error f => do
    match f with
    | .refusal _ => pure ()
    | .fault _ => Grant.noteAll [.endpointFailed]
    pure (e.errorResponse f)

/-- Answers a posted request; `id` names it in the log. A timeout that is not positive fails before
anything else can. -/
def view (e : Endpoint) (id : Text) (r : HttpRequest) : StateM Site HttpResponse := do
  let s ← get
  match Context.start s.uptime e.timeout with
  | .error _ => pure (.plain 500)
  | .ok context => do
    set { s with context := some context }
    e.answer id r

def routes (rule : String) : Except Fault (List (Route Unit)) :=
  match Routing.route? rule ["POST"] () with
  | some route => .ok [route]
  | none => .error (Routing.ruleFault rule)

def serve (e : Endpoint) (routes : List (Route Unit)) (id : Text) (r : HttpRequest) :
    StateM Site HttpResponse :=
  match Routing.dispatch routes r.method r.path with
  | .answered () => e.view id r
  | .options => pure (.plain 200)
  | .redirected => pure (.plain 308)
  | .methodNotAllowed => pure (.plain 405)
  | .notFound => pure (.plain 404)

end Endpoint
end AssertionGrant
