import AssertionGrant.Data.Base64
import AssertionGrant.Data.Splitting
import AssertionGrant.Data.Chars
import AssertionGrant.Text.Utf

/-!
Bytes wrapped in text: a first line with a label, perhaps some headers and an empty line, letters of
the plain alphabet over several lines, and a last line with the same label. A text may hold several
such sections with anything between them.
-/

namespace AssertionGrant.Pem

structure Section where
  label : String
  headers : List (String × String)
  content : Bytes

inductive Fault where
  | framing
  | beginMissing
  | endMissing
  | labelsDiffer (first last : String)
  | letters (f : Base64.Fault)
  | header (line : String)
  | encoding
  deriving DecidableEq, Repr

def inQuotes (s : String) : String := "\"" ++ s ++ "\""

def Fault.message : Fault → String
  | .framing => "MalformedFraming"
  | .beginMissing => "MissingBeginTag"
  | .endMissing => "MissingEndTag"
  | .labelsDiffer first last => "MismatchedTags(" ++ inQuotes first ++ ", " ++ inQuotes last ++ ")"
  | .letters f => "InvalidData(" ++ f.message ++ ")"
  | .header line => "InvalidHeader(" ++ inQuotes line ++ ")"
  | .encoding => "NotUtf8"

structure Frame where
  first : Bytes
  body : Bytes
  last : Bytes

def isBlank (b : UInt8) : Bool := b = 32 || b = 9 || b = 10 || b = 13

def dashes : Bytes := Utf.encode "-----"

def frame? (text : Bytes) : Option (Frame × Bytes) := do
  let (_, text) ← Splitting.cut (dashes ++ Utf.encode "BEGIN ") text
  let (first, text) ← Splitting.cut dashes text
  let (body, text) ← Splitting.cut (dashes ++ Utf.encode "END ") (text.dropWhile isBlank)
  let (last, text) ← Splitting.cut dashes text
  pure (⟨first, body, last⟩, text.dropWhile isBlank)

def frames : Nat → Bytes → List Frame
  | 0, _ => []
  | fuel + 1, text =>
    match frame? text with
    | some (frame, rest) => frame :: frames fuel rest
    | none => []

/-- The headers and the letters of a body, which an empty line parts. -/
def partsOf (body : Bytes) : Bytes × Bytes :=
  match Splitting.cut [10, 10] body with
  | some parts => parts
  | none => (Splitting.cut [13, 10, 13, 10] body).getD ([], body)

def textOf (bytes : Bytes) : Except Fault String :=
  match Utf.decodeUtf8 bytes with
  | .ok cs => .ok (String.ofList cs)
  | .error _ => .error .encoding

def linesOf (cs : List Char) : List (List Char) :=
  let lines := Splitting.pieces '\n' cs
  let lines := if lines.getLast? = some [] then lines.dropLast else lines
  lines.map fun line => if line.getLast? = some '\r' then line.dropLast else line

def headerOf (line : List Char) : Except Fault (String × String) :=
  match Splitting.cut [':'] line with
  | some (name, value) =>
    .ok (Chars.trim (String.ofList name), Chars.trim (String.ofList value))
  | none => .error (.header (String.ofList line))

def Frame.read (f : Frame) : Except Fault Section := do
  let label ← textOf f.first
  if label.isEmpty then throw .beginMissing
  let last ← textOf f.last
  if last.isEmpty then throw .endMissing
  if label ≠ last then throw (.labelsDiffer label last)
  let (headers, letters) := partsOf f.body
  let letters ← textOf letters
  let packed := (linesOf letters.toList).flatMap (Splitting.trimEnd Chars.isBlank)
  let content ← (Base64.decodeCanonical (Utf.encode (String.ofList packed))).mapError .letters
  let headers ← textOf headers
  let headers ← (linesOf headers.toList).mapM headerOf
  pure ⟨label, headers, content⟩

def first (text : Bytes) : Except Fault Section :=
  match frame? text with
  | some (frame, _) => frame.read
  | none => .error .framing

def sections (text : Bytes) : Except Fault (List Section) :=
  match frames text.length text with
  | [] => .error .framing
  | found => found.mapM Frame.read

def Section.header? (s : Section) (name : String) : Option String :=
  (s.headers.find? (·.1 = name)).map (·.2)

end AssertionGrant.Pem
