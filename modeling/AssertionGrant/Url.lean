import AssertionGrant.Text.Quoted
import AssertionGrant.Url.Address

/-!
The parts of a web address that decide whether one address lies under another: scheme, authority
and path. Any text is an address unless its authority has brackets or characters that no authority
may have.
-/

namespace AssertionGrant

structure Url where
  scheme : Text
  authority : Text
  path : Text
  deriving DecidableEq, Repr

namespace Url

inductive Fault where
  | brackets
  | futureAddress
  | plainAddress
  | notAddress (host : Text)
  | characters (authority : Text)
  deriving DecidableEq, Repr

def Fault.message : Fault → Text
  | .brackets => "Invalid IPv6 URL"
  | .futureAddress => "IPvFuture address is invalid"
  | .plainAddress => "An IPv4 address cannot be in brackets"
  | .notAddress host => Text.quoted host ++ " does not appear to be an IPv4 or IPv6 address"
  | .characters authority =>
    "netloc '" ++ authority ++ "' contains invalid characters under NFKC normalization"

def isLetter (l : Letter) : Bool :=
  (97 ≤ l.code && l.code ≤ 122) || (65 ≤ l.code && l.code ≤ 90)

def isSchemeLetter (l : Letter) : Bool :=
  isLetter l || (48 ≤ l.code && l.code ≤ 57) || l == '+' || l == '-' || l == '.'

/-- The text without leading controls and blanks, and without tabs and line ends. -/
def cleaned (t : Text) : Text :=
  (t.dropWhile fun l => decide (l.code ≤ 32)).filter fun l => l ≠ '\t' && l ≠ '\r' && l ≠ '\n'

def splitScheme (t : Text) : Text × Text :=
  let name := t.takeWhile (· ≠ .char ':')
  match name, t.dropWhile (· ≠ .char ':') with
  | l :: _, _ :: rest =>
    if isLetter l && name.all isSchemeLetter then (Text.asciiLower name, rest) else ([], t)
  | _, _ => ([], t)

def endsAuthority (l : Letter) : Bool := l == '/' || l == '?' || l == '#'

def splitAuthority : Text → Option (Text × Text)
  | .char '/' :: .char '/' :: rest =>
    some (rest.takeWhile (!endsAuthority ·), rest.dropWhile (!endsAuthority ·))
  | _ => none

def checkHost (host : Text) : Except Fault Unit :=
  match host with
  | .char 'v' :: rest =>
    let version := rest.takeWhile Address.isHexDigit
    match version, rest.drop version.length with
    | _ :: _, .char '.' :: _ :: _ => .ok ()
    | _, _ => .error .futureAddress
  | _ =>
    if Address.isVersion4 host then .error .plainAddress
    else if Address.isVersion6 host then .ok ()
    else .error (.notAddress host)

def hostPlace (authority : Text) : Text :=
  (authority.reverse.takeWhile (· ≠ .char '@')).reverse

def checkBrackets (authority : Text) : Except Fault Unit :=
  match authority.contains (.char '['), authority.contains (.char ']') with
  | false, false => .ok ()
  | true, true =>
    let place := hostPlace authority
    match place.dropWhile (· ≠ .char '[') with
    | [] => checkHost (place.takeWhile (· ≠ .char ':'))
    | _ :: bracketed =>
      if place.head? ≠ some (.char '[') then .error .brackets
      else
        let host := bracketed.takeWhile (· ≠ .char ']')
        match bracketed.drop (host.length + 1) with
        | [] | .char ':' :: _ => checkHost host
        | _ => .error .brackets
  | _, _ => .error .brackets

/-- The letters whose compatibility form holds a character that ends a host or its authority. -/
def hidesDelimiter (l : Letter) : Bool :=
  [0x2047, 0x2048, 0x2049, 0x2100, 0x2101, 0x2105, 0x2106, 0x2A74, 0xFE13, 0xFE16, 0xFE55, 0xFE56,
   0xFE5F, 0xFE6B, 0xFF03, 0xFF0F, 0xFF1A, 0xFF1F, 0xFF20].contains l.code

def parse (t : Text) : Except Fault Url := do
  let (scheme, rest) := splitScheme (cleaned t)
  let (authority, rest) := (splitAuthority rest).getD ([], rest)
  checkBrackets authority
  if authority.any hidesDelimiter then throw (.characters authority)
  pure ⟨scheme, authority, (rest.takeWhile (· ≠ .char '#')).takeWhile (· ≠ .char '?')⟩

def basePath (u : Url) : Text := Splitting.trimEnd (· == .char '/') u.path

/-- Whether an address is another one or lies below it. -/
def isUnder (u base : Url) : Bool :=
  u.scheme == base.scheme && u.authority == base.authority &&
    (u.path == base.path || u.path == base.basePath || (base.basePath ++ "/").isPrefixOf u.path)

end Url
end AssertionGrant
