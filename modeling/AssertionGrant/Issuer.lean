import AssertionGrant.Request
import AssertionGrant.Site

/-!
Access tokens for granted requests. The token says what was written on the request when it was
granted: the subject and the expiry of its session, its scopes and its audience. A token that cannot
be signed gives no response at all.
-/

namespace AssertionGrant

structure Issuer where
  name : Text
  key : KeyMaterial
  keyId : Option Text := none
  algorithm : Text := "RS256"

namespace Issuer

def check (i : Issuer) : Except Fault Issuer :=
  if i.name.isEmpty then .error ⟨.value, "issuer cannot be empty"⟩ else .ok i

def beyondCalendar : Fault := ⟨.overflow, "date value out of range"⟩

def drawText : Act String := do
  let s ← get
  set { s with draws := s.draws + 1 }
  pure (s.randomText s.draws)

def header (i : Issuer) : Json :=
  let fields : Fields := [("typ", .str "at+jwt"), ("alg", .str i.algorithm)]
  match i.keyId with
  | none | some [] => .obj fields
  | some keyId => .obj (fields ++ ([("kid", .str keyId)] : Fields))

def payload (i : Issuer) (r : AccessRequest) (now expiresAt : Instant) (jti : String) : Json :=
  let subject := (r.session.bind Session.subject?).getD ""
  let fields : Fields :=
    [("iss", .str i.name), ("sub", .str subject), ("iat", .int now.wholeSeconds),
     ("exp", .int expiresAt.wholeSeconds), ("jti", .str jti)]
  let audience : Fields :=
    if r.grantedAudience.isEmpty then [] else [("aud", .arr (r.grantedAudience.map .str))]
  let client : Fields := match r.client with
    | some c => [("client_id", .str c.id)]
    | none => []
  let scope : Fields :=
    if r.grantedScopes.isEmpty then [] else [("scope", .str (Scope.join r.grantedScopes))]
  .obj (fields ++ audience ++ client ++ scope)

variable [Json.Nesting]

/-- The signed token. A key that cannot sign at all is a fault, any other failure to sign a server
error. -/
def sign (i : Issuer) (payload : Json) : Act String :=
  match Algorithm.ofName? i.algorithm with
  | none => throw (.fault ⟨.notImplemented, "Algorithm not supported"⟩)
  | some alg =>
    match Compact.sign i.header payload alg i.key with
    | .ok token => pure token
    | .error f =>
      match f.toFault? with
      | some fault => throw (.fault fault)
      | none => do
        Act.note (.signingFailed f.message)
        throw (.internal f.message)

def secondsLeft (now expiresAt : Instant) : Int :=
  max 0 (((expiresAt.since now).seconds.truncate?).getD 0)

/-- The instant at which a token for a request expires: that of its session, else a lifespan from
now. -/
def expiryFor (r : AccessRequest) (now : Instant) (lifespan : Span) : Except Fault Instant :=
  match r.session.bind (·.expiry? accessToken) with
  | some t => .ok t
  | none =>
    match now.add? lifespan with
    | some t => .ok t
    | none => .error beyondCalendar

def issue (i : Issuer) (lifespan : Span) (r : AccessRequest) : Act TokenResponse := do
  Act.checkContext
  let now := (← get).now
  let expiresAt ← Act.faulting (expiryFor r now lifespan)
  let jti ← drawText
  let token ← i.sign (i.payload r now expiresAt jti)
  pure
    { accessToken := token
      tokenType := "bearer"
      expiresIn := some (.int (secondsLeft now expiresAt))
      scopes := r.grantedScopes }

end Issuer

structure Draft where
  site : Site
  response : TokenResponse

abbrev Fill := ExceptT Failure (StateM Draft)

namespace Fill

def onSite {α : Type} (x : Act α) : Fill α := fun d =>
  ((x.run d.site).1, { d with site := (x.run d.site).2 })

def write (f : TokenResponse → TokenResponse) : Fill Unit :=
  modify fun d => { d with response := f d.response }

end Fill

namespace Issuer

variable [Json.Nesting]

/-- Writes a token for a request on a response, one field after the other. -/
def fill (i : Issuer) (lifespan : Span) (r : AccessRequest) : Fill Unit := do
  Fill.onSite Act.checkContext
  let now := (← get).site.now
  let expiresAt ← Fill.onSite (Act.faulting (expiryFor r now lifespan))
  let jti ← Fill.onSite drawText
  let token ← Fill.onSite (i.sign (i.payload r now expiresAt jti))
  -- Nothing below can fail.
  Fill.write fun response => { response with accessToken := token }
  Fill.write fun response => { response with tokenType := "bearer" }
  Fill.write fun response => { response with expiresIn := some (.int (secondsLeft now expiresAt)) }
  Fill.write fun response => { response with scopes := r.grantedScopes }

end Issuer
end AssertionGrant
