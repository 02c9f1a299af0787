import AssertionGrant.Endpoint
import AssertionGrant.Http.Credentials
import AssertionGrant.Settings.Environment

/-!
A small authorization server: the token endpoint, wired from an environment and a list of trusted
keys, with one client that authenticates by name and secret, and the set of public keys with which
others verify the tokens.
-/

namespace AssertionGrant

structure Server where
  endpoint : Endpoint
  keyId : Text
  key : Crypto.Rsa.PublicKey

namespace Server

def tokenPath : String := "/oauth2/token"

def keysPath : String := "/.well-known/jwks.json"

def authenticate (name secret : Text) (r : HttpRequest) : Except Failure (Option Client) :=
  match r.authorization.map Credentials.ofHeader with
  | none | some (.ok none) => .ok none
  | some (.error ()) => .error (.fault ⟨.value, "a header that is not in ASCII"⟩)
  | some (.ok (some given)) =>
    .ok (if given.areThose name secret then some { id := name, grantTypes := [grantType] }
      else none)

def clientLoader (env : Environment) : HttpRequest → Except Failure (Option Client) :=
  match env.get? "OAUTH_CLIENT_ID" with
  | none | some [] => fun _ => .ok none
  | some name => authenticate name ((env.get? "OAUTH_CLIENT_SECRET").getD "")

def numberText (n : Nat) : String := Base64Url.encode (Crypto.Sha2.bigEndian (n.log2 / 8 + 1) n)

def keyFields (s : Server) : Fields :=
  [("kty", .str "RSA"), ("key_ops", .arr [.str "verify"]), ("n", .str (numberText s.key.modulus)),
   ("e", .str (numberText s.key.exponent)), ("kid", .str s.keyId), ("alg", .str "RS256"),
   ("use", .str "sig")]

def missingName (name : Text) : Fault := ⟨.missingName, Text.quoted name⟩

def entryField (fields : Fields) (name : Text) : Except Fault Json :=
  match fields.get? name with
  | some v => .ok v
  | none => .error (missingName name)

variable [Json.Nesting]

def trust (keys : KeyStore) (cache : Cache) (entry : Json) : Except Fault (KeyStore × Cache) := do
  let some fields := entry.fields? | throw KeyStore.wrongType
  let issuer ← entryField fields "issuer"
  let subject ← entryField fields "subject"
  let value ← entryField fields "jwk"
  let key ← (Jwk.ofJson value).mapError Jwk.Fault.toFault
  keys.add cache issuer subject key ((fields.get? "scopes").getD (.arr []))

def withLineEnds : Text → Text
  | [] => []
  | .char '\r' :: .char '\n' :: rest => .char '\n' :: withLineEnds rest
  | .char '\r' :: rest => .char '\n' :: withLineEnds rest
  | l :: rest => l :: withLineEnds rest

def trustAll (keys : KeyStore) (cache : Cache) : Option Text → Except Fault (KeyStore × Cache)
  | none => .ok (keys, cache)
  | some text =>
    match Json.read (withLineEnds text) with
    | .error f => .error (f.toFault .notJson)
    | .ok v =>
      match v.members with
      | none => .error KeyStore.wrongType
      | some entries =>
        entries.foldlM (fun (keys, cache) entry => trust keys cache entry) (keys, cache)

/-- The server that an environment, a signing key and a text of trusted keys make, and the site with
its stores. The first thing that is wrong ends the start. -/
def start (env : Environment) (key : Crypto.Rsa.PrivateKey) (trusted : Option Text)
    (site : Site) : Except Fault (Server × Site) := do
  let name := (env.get? "AS_ISSUER").getD ""
  if name.isEmpty then throw ⟨.runtime, "Missing required environment variable: AS_ISSUER"⟩
  let settings ← (Settings.ofEnvironment Settings.defaultLead env).mapError
    Settings.EnvironmentFault.toFault
  let isShared := !((env.get? "REDIS_URL").getD "").isEmpty
  let keys : KeyStore := if isShared then .shared else .memory []
  let replays : ReplayStore := if isShared then .shared else .memory 1024 []
  let (keys, cache) ← trustAll keys site.cache trusted
  let keyId := (env.get? "AS_SIGNING_KEY_ID").getD "as-1"
  let issuer ← Issuer.check { name, key := .rsaPrivate key, keyId := some keyId }
  let timeout ← timeoutFrom ((env.get? "TOKEN_TIMEOUT").getD "")
  let endpoint : Endpoint :=
    { grant := { settings, issuer }, client := clientLoader env, timeout }
  pure (⟨endpoint, keyId, key.public⟩, { site with keys, replays, cache })
where
  timeoutFrom (text : Text) : Except Fault (Option Number) :=
    if text.isEmpty then .ok none
    else match Numeral.readBinary64 text with
      | .ok x => .ok (some (.float x))
      | .error f => .error ⟨.value, f.message⟩

def cached (status : Nat) (fields : Fields) : HttpResponse :=
  { status, json := some (HttpResponse.jsonText (.obj fields)) }

def notFound : HttpResponse :=
  cached 404 [("status", .str "error"), ("message", .str "Resource not found.")]

def methodNotAllowed : HttpResponse :=
  cached 405 [("status", .str "error"), ("message", .str "Method not allowed.")]

def bodiless (r : HttpRequest) (response : HttpResponse) : HttpResponse :=
  if r.method = "HEAD" then { response with json := response.json.map fun _ => "" } else response

inductive Page where
  | token
  | keys
  deriving DecidableEq, Repr

def routes : List (Route Page) :=
  (Routing.route? tokenPath ["POST"] .token).toList ++
    (Routing.route? keysPath ["GET", "HEAD"] .keys).toList

def serve (s : Server) (id : Text) (r : HttpRequest) : StateM Site HttpResponse := do
  let response ← match Routing.dispatch routes r.method r.path with
    | .answered .token => s.endpoint.view id r
    | .answered .keys => pure (cached 200 [("keys", .arr [.obj s.keyFields])])
    | .options => pure (.plain 200)
    | .redirected => pure (.plain 308)
    | .methodNotAllowed => pure methodNotAllowed
    | .notFound => pure notFound
  pure (bodiless r response)

end Server
end AssertionGrant
