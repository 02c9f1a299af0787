import AssertionGrant.Number.Numeral
import AssertionGrant.Settings

/-!
Settings from named texts, as an environment holds them. Every value is trimmed; one that is
missing counts as empty, and an empty one leaves the default in place.
-/

namespace AssertionGrant

/-- Named texts, the first entry of a name counting. -/
abbrev Environment := List (Text × Text)

namespace Environment

def get? (env : Environment) (name : Text) : Option Text :=
  (env.find? (·.1 = name)).map (·.2)

def value (env : Environment) (name : Text) : Text :=
  Text.trim ((env.get? name).getD "")

def onWords : List Text := ["1", "true", "yes", "on"]

def flag (env : Environment) (name : Text) : Bool :=
  onWords.contains (Text.asciiLower (env.value name))

end Environment

namespace Settings

inductive EnvironmentFault where
  | unset (name : Text)
  | numeral (f : Numeral.Fault)
  | span (f : Span.Fault)
  | settings (p : Problem)
  deriving DecidableEq, Repr

def EnvironmentFault.toFault : EnvironmentFault → Fault
  | .unset name => ⟨.value, name ++ " must be set"⟩
  | .numeral f => ⟨.value, f.message⟩
  | .span f => ⟨.overflow, f.message⟩
  | .settings p => ⟨.value, p.message⟩

def secondsFrom (env : Environment) (name : Text) (default : Span) :
    Except EnvironmentFault Span :=
  let text := env.value name
  if text.isEmpty then .ok default
  else match Numeral.readInt text with
    | .error f => .error (.numeral f)
    | .ok n => (Span.ofSeconds? n).mapError .span

def algorithmsFrom (env : Environment) (name : Text) : List Text :=
  let text := env.value name
  if text.isEmpty then defaultAlgorithms
  else ((Splitting.pieces (.char ',') text).map Text.trim).filter (!·.isEmpty)

def ofEnvironment (lead : Text) (env : Environment) : Except EnvironmentFault Settings := do
  let tokenUrl := env.value (lead ++ "TOKEN_URL")
  if tokenUrl.isEmpty then throw (.unset (lead ++ "TOKEN_URL"))
  let maxDuration ← secondsFrom env (lead ++ "JWT_MAX_DURATION") (.ofSeconds 86400)
  let lifespan ← secondsFrom env (lead ++ "ACCESS_TOKEN_LIFESPAN") (.ofSeconds 3600)
  let settings : Settings :=
    { tokenUrl
      skipClientAuth := env.flag (lead ++ "SKIP_CLIENT_AUTH")
      jwtIdOptional := env.flag (lead ++ "JWT_ID_OPTIONAL")
      issuedAtOptional := env.flag (lead ++ "JWT_ISSUED_DATE_OPTIONAL")
      maxDuration
      lifespan
      algorithms := algorithmsFrom env (lead ++ "ALGORITHMS")
      matchRequestedAudience := env.flag (lead ++ "MATCH_REQUESTED_AUDIENCE") }
  settings.check.mapError .settings

def defaultLead : Text := "JWT_BEARER_"

end Settings
end AssertionGrant
