import AssertionGrant.Data.Splitting
import AssertionGrant.Form

/-!
Values of headers that consist of a word and named parameters, or of a list of items that commas
part. A value may stand in quotes, and a name that ends in a star tells that its value is written
with percent signs in a character set that is named in front of it.
-/

namespace AssertionGrant.Parameters

def isAlphanumeric (c : Char) : Bool :=
  ('0' ≤ c && c ≤ '9') || ('A' ≤ c && c ≤ 'Z') || ('a' ≤ c && c ≤ 'z') || c == '_'

def isCharsetChar (c : Char) : Bool := isAlphanumeric c || "!#$%&*+-.^`|~".toList.contains c

def apostrophe : Char := Char.ofNat 39

def isTokenChar (c : Char) : Bool := isCharsetChar c || c == apostrophe

inductive Charset where
  | ascii
  | utf8
  | latin1
  deriving DecidableEq, Repr

def Charset.ofName? (name : String) : Option Charset :=
  if name = "ascii" ∨ name = "us-ascii" then some .ascii
  else if name = "utf-8" then some .utf8
  else if name = "iso-8859-1" then some .latin1
  else none

def Charset.decode : Charset → Bytes → List Char
  | .ascii, bytes => bytes.map fun b => if b < 0x80 then Char.ofNat b.toNat else Utf.replacement
  | .utf8, bytes => Utf.decodeReplacing bytes
  | .latin1, bytes => bytes.map fun b => Char.ofNat b.toNat

def runs : List Char → List (Bool × List Char)
  | [] => []
  | c :: rest =>
    let plain := decide (c.toNat < 128)
    match runs rest with
    | (kind, run) :: more =>
      if kind = plain then (kind, c :: run) :: more else (plain, [c]) :: (kind, run) :: more
    | [] => [(plain, [c])]

def percentDecoded (charset : Charset) (cs : List Char) : List Char :=
  (runs cs).flatMap fun (plain, run) =>
    if plain then charset.decode (Form.percentDecoded (Utf.encode (String.ofList run))) else run

/-- The name of a character set in front of a value, and the value; between them may stand the name
of a language. -/
def markOf (cs : List Char) : Option (String × List Char) := do
  let name := cs.takeWhile isCharsetChar
  let rest ← Splitting.after? [apostrophe] (cs.drop name.length)
  let rest ← Splitting.after? [apostrophe] (rest.dropWhile isCharsetChar)
  let value := rest.takeWhile isTokenChar
  if value.isEmpty then none else some (Chars.asciiLower (String.ofList name), value)

def isQuoted (cs : List Char) : Bool :=
  2 ≤ cs.length && cs.head? == some '"' && cs.getLast? == some '"'

def unquoted (cs : List Char) : List Char := (cs.drop 1).dropLast

def replaced (old new : List Char) : Nat → List Char → List Char
  | 0, cs => cs
  | _, [] => []
  | fuel + 1, c :: rest =>
    match Splitting.after? old (c :: rest) with
    | some after => new ++ replaced old new fuel after
    | none => c :: replaced old new fuel rest

/-- The text inside quotes, where a backslash and a number keep a quote from ending it. -/
def unescaped (cs : List Char) : List Char :=
  let inner := unquoted cs
  let inner := replaced ['\\', '\\'] ['\\'] inner.length inner
  let inner := replaced ['\\', '"'] ['"'] inner.length inner
  replaced ['%', '2', '2'] ['"'] inner.length inner

def quotedValue : List Char → Option (List Char)
  | '\\' :: '\\' :: rest => (quotedValue rest).map ('\\' :: '\\' :: ·)
  | '\\' :: '"' :: rest => (quotedValue rest).map ('\\' :: '"' :: ·)
  | '"' :: _ => some ['"']
  | c :: rest => (quotedValue rest).map (c :: ·)
  | [] => none

def rawParameter (cs : List Char) : Option (String × List Char) × List Char :=
  let name := cs.takeWhile isTokenChar
  match name, cs.drop name.length with
  | _ :: _, '=' :: rest =>
    let key := Chars.asciiLower (String.ofList name)
    match rest.takeWhile isTokenChar with
    | value@(_ :: _) => (some (key, value), rest)
    | [] =>
      match rest with
      | '"' :: inside =>
        match quotedValue inside with
        | some value => (some (key, '"' :: value), inside.drop value.length)
        | none => (none, rest)
      | _ => (none, rest)
  | _, _ => (none, cs)

def rawParameters : Nat → List Char → List (String × List Char)
  | 0, _ => []
  | fuel + 1, cs =>
    let (found, rest) := rawParameter cs
    match Splitting.cut [';'] rest with
    | none => found.toList
    | some (_, more) => found.toList ++ rawParameters fuel (more.dropWhile Chars.isBlank)

def baseName (name : String) : Option String :=
  let back := name.toList.reverse
  let digits := back.takeWhile fun c => '0' ≤ c && c ≤ '9'
  match digits, back.drop digits.length with
  | _ :: _, '*' :: rest => some (String.ofList rest.reverse)
  | _, _ => none

abbrev Table := List (String × String)

namespace Table

def get? (t : Table) (name : String) : Option String := (t.find? (·.1 = name)).map (·.2)

def set (t : Table) (name value : String) : Table := t.filter (·.1 ≠ name) ++ [(name, value)]

end Table

/-- The value of a parameter whose name may end in a star, the name without it, and the character
set for values that go on. -/
def decoded (charset : Option Charset) (name : String) (value : List Char) :
    Option Charset × String × List Char :=
  if !name.endsWith "*" then (charset, name, value)
  else
    let name := String.ofList name.toList.dropLast
    let (label, value) := match markOf value with
      | some (label, value) => (label, value)
      | none => ("", value)
    let given := if label.isEmpty then charset else Charset.ofName? label
    match given with
    | some c => (some c, name, percentDecoded c value)
    | none => (charset, name, value)

def collect (raw : List (String × List Char)) : Table :=
  (raw.foldl (fun (state : Option Charset × Table) p =>
    let (charset, t) := state
    let (charset, name, value) := decoded charset p.1 p.2
    let text := String.ofList (if isQuoted value then unescaped value else value)
    match baseName name with
    | some base => (charset, t.set base ((t.get? base).getD "" ++ text))
    | none => (charset, t.set name text)) (none, [])).2

def parse (value : String) : String × Table :=
  let cs := value.toList
  let word := Chars.trim (String.ofList (cs.takeWhile (· ≠ ';')))
  let rest := Chars.trim (String.ofList ((cs.dropWhile (· ≠ ';')).drop 1))
  if word.isEmpty then (word, [])
  else (word, collect (rawParameters (rest.length + 1) rest.toList))

def itemsFrom (quote escape : Bool) (part : List Char) : List Char → List (List Char)
  | [] => if part.isEmpty then [] else [part.reverse]
  | c :: rest =>
    if escape then itemsFrom quote false (c :: part) rest
    else if quote then
      if c = '\\' then itemsFrom quote true part rest
      else itemsFrom (c ≠ '"') false (c :: part) rest
    else if c = ',' then part.reverse :: itemsFrom false false [] rest
    else itemsFrom (c = '"') false (c :: part) rest

def items (value : String) : List (List Char) :=
  (itemsFrom false false [] value.toList).map fun part =>
    let item := (Chars.trim (String.ofList part)).toList
    if isQuoted item then unquoted item else item

def itemNamed (item : List Char) : Option (String × Option String) :=
  let name := Chars.trim (String.ofList (item.takeWhile (· ≠ '=')))
  if name.isEmpty then none
  else match item.dropWhile (· ≠ '=') with
    | [] => some (name, none)
    | _ :: value =>
      let value := (Chars.trim (String.ofList value)).toList
      let (_, name, value) := decoded none name value
      some (name, some (String.ofList (if isQuoted value then unquoted value else value)))

def lastNamed (value name : String) : Option String :=
  (((items value).filterMap itemNamed).reverse.find? (·.1 = name)).bind (·.2)

end AssertionGrant.Parameters
