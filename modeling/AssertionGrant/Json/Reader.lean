import AssertionGrant.Json.Value
import AssertionGrant.Number.Numeral
import AssertionGrant.Text.Utf

/-!
Reading JSON text. Beyond the standard grammar it takes `NaN`, `Infinity` and `-Infinity`; it
refuses control characters inside strings, integers of more digits than `Numeral.digitLimit`, and
nesting deeper than the machine allows. Of fields of one name the last one counts, at the first one's
place. A refusal tells its cause and its place.
-/

namespace AssertionGrant.Json

inductive Cause where
  | value
  | propertyName
  | colon
  | comma
  | unterminated
  | controlCharacter
  | escape
  | unitEscape
  | extra
  | byteOrderMark
  | tooDeep (container : String)
  | tooLong (digits : Nat)
  | encoding (f : Utf.Fault)
  deriving Repr

structure Stop where
  cause : Cause
  left : Nat
  deriving Repr

/-- What the machine that runs a reader or a writer allows it. -/
class Nesting where
  /-- Containers inside containers, at most. -/
  limit : Nat
  /-- A list fits into an object. -/
  two_le : 2 ≤ limit

def isSpace (l : Letter) : Bool := l = ' ' || l = '\t' || l = '\n' || l = '\r'

def skipSpaces (t : Text) : Text := t.dropWhile isSpace

def stop {α : Type} (cause : Cause) (at_ : Text) : Except Stop α := .error ⟨cause, at_.length⟩

def hexDigit? (l : Letter) : Option Nat :=
  let n := l.code
  if 48 ≤ n ∧ n ≤ 57 then some (n - 48)
  else if 97 ≤ n ∧ n ≤ 102 then some (n - 87)
  else if 65 ≤ n ∧ n ≤ 70 then some (n - 55)
  else none

def fourHex? : Text → Option (Nat × Text)
  | a :: b :: c :: d :: rest =>
    match hexDigit? a, hexDigit? b, hexDigit? c, hexDigit? d with
    | some a, some b, some c, some d => some (a * 4096 + b * 256 + c * 16 + d, rest)
    | _, _, _, _ => none
  | _ => none

def simpleEscape? (l : Letter) : Option Letter :=
  if l = '"' ∨ l = '\\' ∨ l = '/' then some l
  else if l = 'b' then some '\x08'
  else if l = 'f' then some '\x0c'
  else if l = 'n' then some '\n'
  else if l = 'r' then some '\r'
  else if l = 't' then some '\t'
  else none

def isHighSurrogate (n : Nat) : Bool := 0xD800 ≤ n && n < 0xDC00

def isLowSurrogate (n : Nat) : Bool := 0xDC00 ≤ n && n < 0xE000

/-- The letters after an opening quote up to the closing one. `opening` is the length of the text
from that opening quote on; `fuel` bounds the count of letters. Two escapes may spell one letter;
halves of a pair that are not both escapes stay apart. -/
def stringBody (opening : Nat) : Nat → Text → Except Stop (Text × Text)
  | 0, _ => .error ⟨.unterminated, opening⟩
  | _, [] => .error ⟨.unterminated, opening⟩
  | fuel + 1, t@(l :: rest) =>
    if l = '"' then .ok ([], rest)
    else if l.code < 32 then stop .controlCharacter t
    else if l ≠ '\\' then do
      let (more, rest) ← stringBody opening fuel rest
      pure (l :: more, rest)
    else match rest with
      | [] => .error ⟨.unterminated, opening⟩
      | .char 'u' :: digits =>
        match fourHex? digits with
        | none => stop .unitEscape rest
        | some (n, after) =>
          if after.isEmpty then stop .unitEscape rest
          else
            let single := do
              let (more, rest) ← stringBody opening fuel after
              pure (.ofCode n :: more, rest)
            if isHighSurrogate n then
              match after with
              | .char '\\' :: .char 'u' :: second =>
                if second.length ≤ 4 then single
                else match fourHex? second with
                  | none => stop .unitEscape (.char 'u' :: second)
                  | some (m, after) =>
                    if isLowSurrogate m then do
                      let (more, rest) ← stringBody opening fuel after
                      pure (.ofCode (Text.joined (n - 0xD800) (m - 0xD800)) :: more, rest)
                    else single
              | _ => single
            else single
      | e :: after =>
        match simpleEscape? e with
        | none => stop .escape t
        | some e => do
          let (more, rest) ← stringBody opening fuel after
          pure (e :: more, rest)

def readString (t : Text) : Except Stop (Text × Text) := stringBody t.length t.length (t.drop 1)

def isAsciiDigit (l : Letter) : Bool := 48 ≤ l.code && l.code ≤ 57

def wholeDigits : Text → Text × Text
  | [] => ([], [])
  | l :: rest =>
    if l = '0' then ([l], rest)
    else if isAsciiDigit l then (l :: rest.takeWhile isAsciiDigit, rest.dropWhile isAsciiDigit)
    else ([], l :: rest)

def fractionDigits : Text → Text × Text
  | .char '.' :: l :: rest =>
    if isAsciiDigit l then (l :: rest.takeWhile isAsciiDigit, rest.dropWhile isAsciiDigit)
    else ([], .char '.' :: l :: rest)
  | t => ([], t)

def exponent? : Text → Option (Int × Text)
  | l :: rest =>
    if l = 'e' ∨ l = 'E' then
      let (negative, digits) := Numeral.signed rest
      let run := digits.takeWhile isAsciiDigit
      if run.isEmpty then none
      else
        let n : Int := Numeral.value run
        some (if negative then -n else n, digits.drop run.length)
    else none
  | [] => none

def readNumber (start : Text) (negative : Bool) (t : Text) : Except Stop (Json × Text) :=
  let (whole, rest) := wholeDigits t
  if whole.isEmpty then stop .value start
  else
    let (fraction, rest) := fractionDigits rest
    match exponent? rest, fraction with
    | none, [] =>
      if Numeral.digitLimit < whole.length then stop (.tooLong whole.length) start
      else
        let n : Int := Numeral.value whole
        .ok (.int (if negative then -n else n), rest)
    | none, _ =>
      .ok (.num (.float (.ofDecimal negative (Numeral.value (whole ++ fraction))
        (-(fraction.length : Int)))), rest)
    | some (e, rest), _ =>
      .ok (.num (.float (.ofDecimal negative (Numeral.value (whole ++ fraction))
        (e - (fraction.length : Int)))), rest)

def named : List (Text × Json) :=
  [("null", .null), ("true", .bool true), ("false", .bool false), ("NaN", .num (.float .nan)),
   ("Infinity", .num (.float (.infinite false))), ("-Infinity", .num (.float (.infinite true)))]

def readScalar (t : Text) : Except Stop (Json × Text) :=
  match named.findSome? fun (name, v) => (Splitting.after? name t).map (v, ·) with
  | some r => .ok r
  | none =>
    match t with
    | .char '-' :: rest => readNumber t true rest
    | _ => readNumber t false t

mutual

/-- A value at the first letter. `fuel` bounds the work, `depth` the containers still allowed
inside each other. -/
def readValue : Nat → Nat → Text → Except Stop (Json × Text)
  | 0, _, t => stop .value t
  | fuel + 1, depth, t =>
    match t with
    | .char '"' :: _ => do
      let (s, rest) ← readString t
      pure (.str s, rest)
    | .char '[' :: rest =>
      match depth with
      | 0 => stop (.tooDeep "array") t
      | depth + 1 =>
        match skipSpaces rest with
        | .char ']' :: rest => .ok (.arr [], rest)
        | rest => do
          let (items, rest) ← readItems fuel depth rest
          pure (.arr items, rest)
    | .char '\x7b' :: rest =>
      match depth with
      | 0 => stop (.tooDeep "object") t
      | depth + 1 =>
        match skipSpaces rest with
        | .char '\x7d' :: rest => .ok (.obj [], rest)
        | rest => do
          let (fields, rest) ← readFields fuel depth [] rest
          pure (.obj fields, rest)
    | _ => readScalar t

def readItems : Nat → Nat → Text → Except Stop (List Json × Text)
  | 0, _, t => stop .value t
  | fuel + 1, depth, t => do
    let (v, rest) ← readValue fuel depth t
    match skipSpaces rest with
    | .char ']' :: rest => pure ([v], rest)
    | .char ',' :: rest =>
      let (items, rest) ← readItems fuel depth (skipSpaces rest)
      pure (v :: items, rest)
    | rest => stop .comma rest

def readFields : Nat → Nat → Fields → Text → Except Stop (Fields × Text)
  | 0, _, _, t => stop .value t
  | fuel + 1, depth, sofar, t =>
    match t with
    | .char '"' :: _ => do
      let (name, rest) ← readString t
      match skipSpaces rest with
      | .char ':' :: rest =>
        let (v, rest) ← readValue fuel depth (skipSpaces rest)
        let sofar := sofar.set name v
        match skipSpaces rest with
        | .char '\x7d' :: rest => pure (sofar, rest)
        | .char ',' :: rest => readFields fuel depth sofar (skipSpaces rest)
        | rest => stop .comma rest
      | rest => stop .colon rest
    | _ => stop .propertyName t

end

def readText [Nesting] (t : Text) : Except Stop Json := do
  let (v, rest) ← readValue (2 * t.length + 2) Nesting.limit (skipSpaces t)
  match skipSpaces rest with
  | [] => pure v
  | rest => stop .extra rest

structure Fault where
  stop : Stop
  source : Text

def Cause.text : Cause → String
  | .value => "Expecting value"
  | .propertyName => "Expecting property name enclosed in double quotes"
  | .colon => "Expecting ':' delimiter"
  | .comma => "Expecting ',' delimiter"
  | .unterminated => "Unterminated string starting at"
  | .controlCharacter => "Invalid control character at"
  | .escape => "Invalid \\escape"
  | .unitEscape => "Invalid \\uXXXX escape"
  | .extra => "Extra data"
  | .byteOrderMark => "Unexpected UTF-8 BOM (decode using utf-8-sig)"
  | .tooDeep container =>
    s!"maximum recursion depth exceeded while decoding a JSON {container} from a unicode string"
  | .tooLong digits => (Numeral.Fault.tooLong digits).message
  | .encoding f => f.message

def Fault.message (f : Fault) : String :=
  match f.stop.cause with
  | .tooDeep _ | .tooLong _ | .encoding _ => f.stop.cause.text
  | cause =>
    let place := f.source.length - f.stop.left
    let before := f.source.take place
    let line := before.count (.char '\n') + 1
    let column := (before.reverse.takeWhile (· ≠ .char '\n')).length + 1
    cause.text ++ s!": line {line} column {column} (char {place})"

def Fault.isTooDeep (f : Fault) : Bool :=
  match f.stop.cause with
  | .tooDeep _ => true
  | _ => false

variable [Nesting]

def read (t : Text) : Except Fault Json :=
  match t with
  | .char '\uFEFF' :: _ => .error ⟨⟨.byteOrderMark, t.length⟩, t⟩
  | _ => (readText t).mapError fun e => ⟨e, t⟩

def readBytes (bytes : Bytes) : Except Fault Json :=
  match Utf.decode bytes with
  | .error f => .error ⟨⟨.encoding f, 0⟩, []⟩
  | .ok t => (readText t).mapError fun e => ⟨e, t⟩

end AssertionGrant.Json
