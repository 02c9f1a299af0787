import AssertionGrant.Data.Base64
import AssertionGrant.Http.Parameters

/-!
The name and the secret of a client, as the header for authorization carries them: after the basic
scheme in letters that spell both, or after any other scheme as named parameters.
-/

namespace AssertionGrant

structure Credentials where
  name : Option String
  secret : Option String
  deriving DecidableEq, Repr

namespace Credentials

def header (name secret : String) : String :=
  "Basic " ++ Base64.encode (Utf.encode (name ++ ":" ++ secret))

/-- A text as it travels in a header, each of its bytes being one character. -/
def carried (s : String) : String :=
  String.ofList ((Utf.encode s).map fun b => Char.ofNat b.toNat)

def ofPair (cs : List Char) : Credentials :=
  ⟨some (String.ofList (cs.takeWhile (· ≠ ':'))),
   some (String.ofList ((cs.dropWhile (· ≠ ':')).drop 1))⟩

def ofLetters (letters : String) : Except Unit (Option Credentials) :=
  if !letters.toList.all (·.toNat < 128) then .error ()
  else match (Base64.decodeStrict letters).map Utf.decodeUtf8 with
    | some (.ok cs) => .ok (some (ofPair cs))
    | _ => .ok none

/-- The credentials among named parameters. A token, which may end in equals signs, has none. -/
def ofParameters (text : String) : Option Credentials :=
  if (Splitting.trimEnd (· == '=') text.toList).contains '=' then
    some ⟨Parameters.lastNamed text "username", Parameters.lastNamed text "password"⟩
  else none

def ofHeader (header : String) : Except Unit (Option Credentials) :=
  let cs := (carried header).toList
  let scheme := Chars.asciiLower (String.ofList (cs.takeWhile (· ≠ ' ')))
  let rest := Chars.trim (String.ofList ((cs.dropWhile (· ≠ ' ')).drop 1))
  if scheme = "basic" then ofLetters rest else .ok (ofParameters rest)

def areThose (c : Credentials) (name secret : Text) : Bool :=
  c.name.map Text.ofString == some name && Text.ofString (c.secret.getD "") == secret

end Credentials
end AssertionGrant
