import AssertionGrant.Number.Shortest
import AssertionGrant.Text.Blank
import AssertionGrant.Text.Quoted

/-!
Reading numerals that people write in settings: a sign, decimal digits of any script, single
underscores between digits, and blanks around. An integer has at most `digitLimit` digits.
-/

namespace AssertionGrant.Numeral

inductive Fault where
  | notInteger (text : Text)
  | notNumber (text : Text)
  | tooLong (digits : Nat)
  deriving DecidableEq, Repr

def digitLimit : Nat := 4300

def Fault.message : Fault → String
  | .notInteger text =>
    "invalid literal for int() with base 10: " ++ String.ofList ((Text.quoted text).toList.take 200)
  | .notNumber text => "could not convert string to float: " ++ Text.quoted text
  | .tooLong digits =>
    s!"Exceeds the limit ({digitLimit} digits) for integer string conversion: value has {digits}" ++
      " digits; use sys.set_int_max_str_digits() to increase the limit"

def zeros : List Nat :=
  [0x30, 0x660, 0x6F0, 0x7C0, 0x966, 0x9E6, 0xA66, 0xAE6, 0xB66, 0xBE6, 0xC66, 0xCE6, 0xD66,
   0xDE6, 0xE50, 0xED0, 0xF20, 0x1040, 0x1090, 0x17E0, 0x1810, 0x1946, 0x19D0, 0x1A80, 0x1A90,
   0x1B50, 0x1BB0, 0x1C40, 0x1C50, 0xA620, 0xA8D0, 0xA900, 0xA9D0, 0xA9F0, 0xAA50, 0xABF0,
   0xFF10, 0x104A0, 0x10D30, 0x11066, 0x110F0, 0x11136, 0x111D0, 0x112F0, 0x11450, 0x114D0,
   0x11650, 0x116C0, 0x11730, 0x118E0, 0x11950, 0x11C50, 0x11D50, 0x11DA0, 0x16A60, 0x16AC0,
   0x16B50, 0x1D7CE, 0x1D7D8, 0x1D7E2, 0x1D7EC, 0x1D7F6, 0x1E140, 0x1E2F0, 0x1E950, 0x1FBF0]

def digit? (l : Letter) : Option Nat :=
  (zeros.find? fun z => z ≤ l.code && l.code < z + 10).map (l.code - ·)

def isDigit (l : Letter) : Bool := (digit? l).isSome

/-- The number that a run of digits writes; letters that are no digits are passed over. -/
def value (t : Text) : Nat :=
  t.foldl (fun n l => match digit? l with
    | some d => 10 * n + d
    | none => n) 0

/-- Blanks around a numeral; the information separators do not count. -/
def isSpace (l : Letter) : Bool := Text.isBlank l && !(28 ≤ l.code && l.code ≤ 31)

def trimSpaces (t : Text) : Text := Splitting.trimBoth isSpace t

def underscoresBetween : Bool → Text → Bool
  | _, [] => true
  | afterDigit, .char '_' :: l :: rest => afterDigit && isDigit l && underscoresBetween true rest
  | _, [.char '_'] => false
  | _, l :: rest => underscoresBetween (isDigit l) rest

def signed : Text → Bool × Text
  | .char '-' :: rest => (true, rest)
  | .char '+' :: rest => (false, rest)
  | t => (false, t)

def readInt (s : Text) : Except Fault Int :=
  let (negative, body) := signed (trimSpaces s)
  let run := body.takeWhile fun l => isDigit l || l == '_'
  let rest := body.drop run.length
  let digits := run.filter isDigit
  if !underscoresBetween false run then .error (.notInteger s)
  else if digitLimit < digits.length then .error (.tooLong digits.length)
  else if digits.isEmpty || !rest.isEmpty then .error (.notInteger s)
  else .ok (if negative then -(value digits : Int) else value digits)

def readMagnitude (negative : Bool) (t : Text) : Option Binary64 :=
  let whole := t.takeWhile isDigit
  let rest := t.drop whole.length
  let (fraction, rest) := match rest with
    | .char '.' :: more => (more.takeWhile isDigit, more.dropWhile isDigit)
    | _ => ([], rest)
  if whole.isEmpty && fraction.isEmpty then none
  else
    let finish (e : Int) :=
      some (Binary64.ofDecimal negative (value (whole ++ fraction)) (e - (fraction.length : Int)))
    match rest with
    | [] => finish 0
    | l :: more =>
      if l = 'e' ∨ l = 'E' then
        let (down, ds) := signed more
        if ds.isEmpty || !ds.all isDigit then none
        else finish (if down then -(value ds : Int) else value ds)
      else none

def readBinary64 (s : Text) : Except Fault Binary64 :=
  let trimmed := trimSpaces s
  let refused : Except Fault Binary64 := .error (.notNumber s)
  if !underscoresBetween false trimmed then refused
  else
    let (negative, body) := signed (trimmed.filter (· ≠ '_'))
    let name := Text.asciiLower body
    if name = "inf" ∨ name = "infinity" then .ok (.infinite negative)
    else if name = "nan" then .ok .nan
    else match readMagnitude negative body with
      | some x => .ok x
      | none => refused

end AssertionGrant.Numeral
