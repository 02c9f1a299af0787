import AssertionGrant.Json.Value
import AssertionGrant.Number.Shortest
import AssertionGrant.Text.Quoted

/-!
JSON text in ASCII: every other letter is written as `\u` escapes of its UTF-16 units. A style
chooses the blanks after separators and whether the fields of objects are sorted by name.
-/

namespace AssertionGrant.Json

structure Style where
  comma : String
  colon : String
  sorted : Bool
  deriving Repr

def compact : Style := ⟨",", ":", false⟩

def canonical : Style := ⟨",", ":", true⟩

def spaced : Style := ⟨", ", ": ", false⟩

def unitEscape (n : Nat) : List Char := '\\' :: 'u' :: Text.hexPadded 4 n

def escapeChar (c : Char) : List Char :=
  if c = '"' then ['\\', '"']
  else if c = '\\' then ['\\', '\\']
  else if c = '\n' then ['\\', 'n']
  else if c = '\r' then ['\\', 'r']
  else if c = '\t' then ['\\', 't']
  else if c = '\x08' then ['\\', 'b']
  else if c = '\x0c' then ['\\', 'f']
  else
    let n := c.toNat
    if 32 ≤ n ∧ n ≤ 126 then [c]
    else if n < 0x10000 then unitEscape n
    else unitEscape (0xD800 + (n - 0x10000) / 1024) ++ unitEscape (0xDC00 + (n - 0x10000) % 1024)

def escapeLetter : Letter → List Char
  | .char c => escapeChar c
  | .half n => unitEscape (Letter.half n).code

def stringText (s : Text) : String :=
  String.ofList ('"' :: (s.flatMap escapeLetter ++ ['"']))

def numberText : Number → String
  | .int z => toString z
  | .float x => x.textWith ⟨"NaN", "Infinity"⟩

mutual

def text (style : Style) : Json → String
  | .null => "null"
  | .bool b => if b then "true" else "false"
  | .num n => numberText n
  | .str s => stringText s
  | .arr items => "[" ++ style.comma.intercalate (itemTexts style items) ++ "]"
  | .obj fields =>
    let written := fieldTexts style fields
    let ordered := if style.sorted then written.mergeSort fun a b => a.1.isUpTo b.1 else written
    "\x7b" ++ style.comma.intercalate (ordered.map fun f => stringText f.1 ++ style.colon ++ f.2) ++
      "\x7d"

def itemTexts (style : Style) : List Json → List String
  | [] => []
  | v :: rest => text style v :: itemTexts style rest

def fieldTexts (style : Style) : List (Text × Json) → List (Text × String)
  | [] => []
  | (name, v) :: rest => (name, text style v) :: fieldTexts style rest

end

end AssertionGrant.Json
