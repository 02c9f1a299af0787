import AssertionGrant.Failure
import AssertionGrant.Number.Shortest
import AssertionGrant.Time.Instant

/-!
The registered claims of an assertion with their types. A text claim that is missing is empty, a
date that is missing is none; an audience is always a list.
-/

namespace AssertionGrant

structure Claims where
  issuer : Text := ""
  subject : Text := ""
  audience : List Text := []
  expiresAt : Option Instant := none
  notBefore : Option Instant := none
  issuedAt : Option Instant := none
  jwtId : Text := ""
  raw : Fields := []

namespace Claims

inductive Problem where
  | notText (name : String)
  | notAudience
  | notDate (name : String)
  | outOfRange (name : String)
  | year (n : Int)
  | notANumber
  deriving DecidableEq, Repr

def Problem.message : Problem → String
  | .notText name => "\"" ++ name ++ "\" claim must be a string"
  | .notAudience => "\"aud\" claim must be a string or an array of strings"
  | .notDate name => "\"" ++ name ++ "\" claim must be a NumericDate"
  | .outOfRange name => "\"" ++ name ++ "\" claim is out of range"
  | .year n => s!"year {n} is out of range"
  | .notANumber => "Invalid value NaN (not a number)"

def textOf (fields : Fields) (name : String) : Except Problem Text :=
  match fields.get? name with
  | none | some .null => .ok ""
  | some (.str s) => .ok s
  | some _ => .error (.notText name)

def audienceOf (fields : Fields) : Except Problem (List Text) :=
  match fields.get? "aud" with
  | none | some .null => .ok []
  | some (.str s) => .ok [s]
  | some (.arr items) =>
    match items.mapM Json.str? with
    | some texts => .ok texts
    | none => .error .notAudience
  | some _ => .error .notAudience

def dateOf (fields : Fields) (name : String) : Except Problem (Option Instant) :=
  match fields.get? name with
  | none | some .null => .ok none
  | some (.num n) =>
    match Instant.ofSeconds n with
    | .ok t => .ok (some t)
    | .error .beyondCalendar => .error (.outOfRange name)
    | .error (.year n) => .error (.year n)
    | .error .notANumber => .error .notANumber
  | some _ => .error (.notDate name)

def ofFields (fields : Fields) : Except Problem Claims := do
  let issuer ← textOf fields "iss"
  let subject ← textOf fields "sub"
  let audience ← audienceOf fields
  let expiresAt ← dateOf fields "exp"
  let notBefore ← dateOf fields "nbf"
  let issuedAt ← dateOf fields "iat"
  let jwtId ← textOf fields "jti"
  pure { issuer, subject, audience, expiresAt, notBefore, issuedAt, jwtId, raw := fields }

end Claims
end AssertionGrant
