import AssertionGrant.Data.Base64Url

/-!
Values in the distinguished encoding: a tag, a length and a content, where a content may consist of
further values. There is one way to write a value, and readers refuse any other.
-/

namespace AssertionGrant.Der

inductive TagClass where
  | universal
  | application
  | contextSpecific
  | reserved
  deriving DecidableEq, Repr

structure Tag where
  number : Nat
  constructed : Bool
  tagClass : TagClass
  deriving DecidableEq, Repr

inductive Fault where
  | badValue
  | badTag
  | badLength
  | unexpected (found : Tag)
  | short (needed : Nat)
  | overflow
  | extra
  deriving DecidableEq, Repr

def TagClass.name : TagClass → String
  | .universal => "Universal"
  | .application => "Application"
  | .contextSpecific => "ContextSpecific"
  | .reserved => "Private"

def Tag.text (t : Tag) : String :=
  s!"Tag \x7b value: {t.number}, constructed: {t.constructed}, class: {t.tagClass.name} \x7d"

def Fault.message : Fault → String
  | .badValue => "ASN.1 parsing error: invalid value"
  | .badTag => "ASN.1 parsing error: invalid tag"
  | .badLength => "ASN.1 parsing error: invalid length"
  | .unexpected found => s!"ASN.1 parsing error: unexpected tag (got {found.text})"
  | .short needed =>
    s!"ASN.1 parsing error: short data (needed at least {needed} additional bytes)"
  | .overflow => "ASN.1 parsing error: integer overflow"
  | .extra => "ASN.1 parsing error: extra data"

def plain (number : Nat) : Tag := ⟨number, false, .universal⟩

def integerTag : Tag := plain 2

def bitsTag : Tag := plain 3

def octetsTag : Tag := plain 4

def nullTag : Tag := plain 5

def nameTag : Tag := plain 6

def sequenceTag : Tag := ⟨16, true, .universal⟩

/-- The tag of an optional value that its number tells from others. -/
def choiceTag (number : Nat) : Tag := ⟨number, true, .contextSpecific⟩

def classOf (n : Nat) : TagClass :=
  if n = 0 then .universal
  else if n = 1 then .application
  else if n = 2 then .contextSpecific
  else .reserved

/-- A number of seven bits a byte, of which all bytes but the last have their top bit set. The
number must fit 32 bits. -/
def readLongNumber : Nat → Nat → Bytes → Except Fault (Nat × Bytes)
  | 0, _, _ => .error .badValue
  | _ + 1, _, [] => .error (.short 1)
  | count + 1, sofar, b :: rest =>
    let n := sofar * 128 + b.toNat % 128
    if sofar = 0 && b = 0x80 then .error .badValue
    else if Nat.pow 2 32 ≤ n then .error .badValue
    else if b < 0x80 then .ok (n, rest)
    else readLongNumber count n rest

def readTag : Bytes → Except Fault (Tag × Bytes)
  | [] => .error (.short 1)
  | b :: rest =>
    let n := b.toNat
    let constructed := n / 32 % 2 == 1
    if n % 32 ≠ 31 then .ok (⟨n % 32, constructed, classOf (n / 64)⟩, rest)
    else do
      let (number, rest) ← readLongNumber 5 0 rest
      if number < 31 then throw .badTag
      pure (⟨number, constructed, classOf (n / 64)⟩, rest)

def readBytes (count : Nat) (bytes : Bytes) : Except Fault (Bytes × Bytes) :=
  if bytes.length < count then .error (.short (count - bytes.length))
  else .ok (bytes.take count, bytes.drop count)

def ofBigEndian (bytes : Bytes) : Nat := bytes.foldl (fun n b => n * 256 + b.toNat) 0

def readLength : Bytes → Except Fault (Nat × Bytes)
  | [] => .error (.short 1)
  | b :: rest =>
    if b < 0x80 then .ok (b.toNat, rest)
    else if b = 0x80 ∨ 0x84 < b then .error .badLength
    else do
      let count := b.toNat - 0x80
      let (digits, rest) ← readBytes count rest
      let n := ofBigEndian digits
      if n < 0x80 ∨ n < Nat.pow 256 (count - 1) then throw .badLength
      pure (n, rest)

def readAny (bytes : Bytes) : Except Fault ((Tag × Bytes) × Bytes) := do
  let (tag, rest) ← readTag bytes
  let (size, rest) ← readLength rest
  let (content, rest) ← readBytes size rest
  pure ((tag, content), rest)

def read (tag : Tag) (bytes : Bytes) : Except Fault (Bytes × Bytes) := do
  let ((found, content), rest) ← readAny bytes
  if found = tag then pure (content, rest) else throw (.unexpected found)

def readOptional (tag : Tag) (bytes : Bytes) : Except Fault (Option Bytes × Bytes) :=
  match bytes, readTag bytes with
  | [], _ => .ok (none, [])
  | _, .error f => .error f
  | _, .ok (found, _) =>
    if found = tag then (read tag bytes).map fun (content, rest) => (some content, rest)
    else .ok (none, bytes)

def finish (bytes : Bytes) : Except Fault Unit := if bytes.isEmpty then .ok () else .error .extra

def readOnly (tag : Tag) (bytes : Bytes) : Except Fault Bytes := do
  let (content, rest) ← read tag bytes
  finish rest
  pure content

def readNatural (bytes : Bytes) : Except Fault (Nat × Bytes) := do
  let (content, rest) ← read integerTag bytes
  match content with
  | [] => throw .badValue
  | [b] => if 0x80 ≤ b then throw .badValue
  | a :: b :: _ =>
    if 0x80 ≤ a then throw .badValue
    if a = 0 && b < 0x80 then throw .badValue
  pure (ofBigEndian content, rest)

def readVersion (bytes : Bytes) : Except Fault (Nat × Bytes) := do
  let (n, rest) ← readNatural bytes
  if 256 ≤ n then throw .overflow
  pure (n, rest)

def readBits (bytes : Bytes) : Except Fault (Bytes × Bytes) := do
  let (content, rest) ← read bitsTag bytes
  match content with
  | [] => throw .badValue
  | spare :: bits =>
    if 7 < spare ∨ (spare ≠ 0 ∧ bits.isEmpty) then throw .badValue
    if bits.getLastD 0 &&& ((1 <<< spare) - 1) ≠ 0 then throw .badValue
    pure (bits, rest)

def nameNumbers : Nat → Bytes → Except Fault (List Nat)
  | _, [] => .ok []
  | 0, _ => .error .badValue
  | fuel + 1, bytes => do
    let (n, rest) ← readLongNumber 5 0 bytes
    let more ← nameNumbers fuel rest
    pure (n :: more)

def nameOf (content : Bytes) : Except Fault (List Nat) := do
  match ← nameNumbers content.length content with
  | [] => throw .badValue
  | n :: more => pure (if n < 40 then 0 :: n :: more
    else if n < 80 then 1 :: (n - 40) :: more
    else 2 :: (n - 80) :: more)

def readName (bytes : Bytes) : Except Fault (List Nat × Bytes) := do
  let (content, rest) ← read nameTag bytes
  let name ← nameOf content
  pure (name, rest)

end AssertionGrant.Der
