import AssertionGrant.Data.Base64Url
import AssertionGrant.Text.Quoted

/-!
Bytes and text in the Unicode encodings. Reading tells which of the five encodings a text begins
in, takes a byte order mark off, and refuses what no encoder writes; readers of JSON let the halves of
surrogate pairs pass as letters of their own.
-/

namespace AssertionGrant.Utf

inductive Encoding where
  | utf8
  | utf16 (littleEndian : Bool)
  | utf32 (littleEndian : Bool)
  deriving DecidableEq, Repr

def Encoding.name : Encoding → String
  | .utf8 => "utf-8"
  | .utf16 littleEndian => if littleEndian then "utf-16-le" else "utf-16-be"
  | .utf32 littleEndian => if littleEndian then "utf-32-le" else "utf-32-be"

inductive Reason where
  | invalidStart
  | invalidContinuation
  | unexpectedEnd
  | truncated
  | outOfRange
  deriving DecidableEq, Repr

def Reason.text : Reason → String
  | .invalidStart => "invalid start byte"
  | .invalidContinuation => "invalid continuation byte"
  | .unexpectedEnd => "unexpected end of data"
  | .truncated => "truncated data"
  | .outOfRange => "code point not in range(0x110000)"

structure Fault where
  encoding : Encoding
  position : Nat
  count : Nat
  lead : UInt8
  reason : Reason
  deriving Repr

def hexByte (b : UInt8) : String := String.ofList (Text.hexPadded 2 b.toNat)

def Fault.message (f : Fault) : String :=
  "'" ++ f.encoding.name ++ "' codec can't decode " ++
    (if f.count = 1 then "byte 0x" ++ hexByte f.lead ++ s!" in position {f.position}"
     else s!"bytes in position {f.position}-{f.position + f.count - 1}") ++
    ": " ++ f.reason.text

def encode (s : String) : Bytes := s.toUTF8.toList

/-- What is said of a text that no encoding writes: where the first halves of pairs in it stand. -/
def unencodable (t : Text) : String :=
  let isHalf (l : Letter) : Bool := l.char?.isNone
  let place := (t.takeWhile (!isHalf ·)).length
  let halves := (t.drop place).takeWhile isHalf
  "'utf-8' codec can't encode " ++
    (match halves with
     | [half] => "character '" ++ String.ofList (Text.escaped half.code) ++
        s!"' in position {place}"
     | _ => s!"characters in position {place}-{place + halves.length - 1}") ++
    ": surrogates not allowed"

def isContinuation (b : UInt8) : Bool := 0x80 ≤ b && b < 0xC0

def low (b : UInt8) : Nat := b.toNat % 64

def readUtf8 : Bytes → Except (Nat × Reason) (Char × Nat)
  | [] => .error (0, .unexpectedEnd)
  | a :: rest =>
    let n := a.toNat
    if n < 0x80 then .ok (Char.ofNat n, 1)
    else if n < 0xC2 ∨ 0xF4 < n then .error (1, .invalidStart)
    else if n < 0xE0 then
      match rest with
      | [] => .error (1, .unexpectedEnd)
      | b :: _ =>
        if isContinuation b then .ok (Char.ofNat ((n - 0xC0) * 64 + low b), 2)
        else .error (1, .invalidContinuation)
    else if n < 0xF0 then
      match rest with
      | [] => .error (1, .unexpectedEnd)
      | b :: rest =>
        if !isContinuation b || (n = 0xE0 && b < 0xA0) || (n = 0xED && 0xA0 ≤ b) then
          .error (1, .invalidContinuation)
        else match rest with
          | [] => .error (2, .unexpectedEnd)
          | c :: _ =>
            if isContinuation c then .ok (Char.ofNat ((n - 0xE0) * 4096 + low b * 64 + low c), 3)
            else .error (2, .invalidContinuation)
    else
      match rest with
      | [] => .error (1, .unexpectedEnd)
      | b :: rest =>
        if !isContinuation b || (n = 0xF0 && b < 0x90) || (n = 0xF4 && 0x90 ≤ b) then
          .error (1, .invalidContinuation)
        else match rest with
          | [] => .error (2, .unexpectedEnd)
          | c :: rest =>
            if !isContinuation c then .error (2, .invalidContinuation)
            else match rest with
              | [] => .error (3, .unexpectedEnd)
              | d :: _ =>
                if isContinuation d then
                  .ok (Char.ofNat ((n - 0xF0) * 262144 + low b * 4096 + low c * 64 + low d), 4)
                else .error (3, .invalidContinuation)

def half? : Bytes → Option Letter
  | a :: b :: c :: _ =>
    if a = 0xED ∧ 0xA0 ≤ b ∧ isContinuation b ∧ isContinuation c then
      some (.ofCode (0xD000 + low b * 64 + low c))
    else none
  | _ => none

/-- The letters of UTF-8 bytes that start at `position`; `halves` lets half of a surrogate pair
pass, and `fuel` bounds the count of letters. -/
def decodeUtf8From (halves : Bool) : Nat → Nat → Bytes → Except Fault Text
  | _, _, [] => .ok []
  | 0, _, _ => .ok []
  | fuel + 1, position, bytes@(a :: _) =>
    match readUtf8 bytes with
    | .ok (c, k) => (decodeUtf8From halves fuel (position + k) (bytes.drop k)).map (.char c :: ·)
    | .error (count, reason) =>
      match halves, half? bytes with
      | true, some l => (decodeUtf8From halves fuel (position + 3) (bytes.drop 3)).map (l :: ·)
      | _, _ => .error ⟨.utf8, position, count, a, reason⟩

def decodeUtf8 (bytes : Bytes) : Except Fault (List Char) :=
  (decodeUtf8From false bytes.length 0 bytes).map (·.filterMap Letter.char?)

def replacement : Char := Char.ofNat 0xFFFD

def decodeReplacingFrom : Nat → Bytes → List Char
  | 0, _ | _, [] => []
  | fuel + 1, bytes =>
    match readUtf8 bytes with
    | .ok (c, size) => c :: decodeReplacingFrom fuel (bytes.drop size)
    | .error (size, _) => replacement :: decodeReplacingFrom fuel (bytes.drop (max 1 size))

def decodeReplacing (bytes : Bytes) : List Char := decodeReplacingFrom bytes.length bytes

def pair (littleEndian : Bool) (a b : UInt8) : Nat :=
  if littleEndian then b.toNat * 256 + a.toNat else a.toNat * 256 + b.toNat

def decodeUtf16From (littleEndian : Bool) : Nat → Bytes → Except Fault Text
  | position, a :: b :: c :: d :: rest =>
    let hi := pair littleEndian a b
    let lo := pair littleEndian c d
    if 0xD800 ≤ hi ∧ hi < 0xDC00 ∧ 0xDC00 ≤ lo ∧ lo < 0xE000 then
      (decodeUtf16From littleEndian (position + 4) rest).map
        (Letter.ofCode (0x10000 + (hi - 0xD800) * 1024 + (lo - 0xDC00)) :: ·)
    else
      (decodeUtf16From littleEndian (position + 2) (c :: d :: rest)).map (.ofCode hi :: ·)
  | position, a :: b :: rest =>
    (decodeUtf16From littleEndian (position + 2) rest).map (Letter.ofCode (pair littleEndian a b) :: ·)
  | position, [a] => .error ⟨.utf16 littleEndian, position, 1, a, .truncated⟩
  | _, [] => .ok []

def decodeUtf32From (littleEndian : Bool) : Nat → Bytes → Except Fault Text
  | position, a :: b :: c :: d :: rest =>
    let n := if littleEndian then pair true c d * 65536 + pair true a b
      else pair false a b * 65536 + pair false c d
    if 0x110000 ≤ n then .error ⟨.utf32 littleEndian, position, 4, a, .outOfRange⟩
    else (decodeUtf32From littleEndian (position + 4) rest).map (.ofCode n :: ·)
  | _, [] => .ok []
  | position, a :: rest =>
    .error ⟨.utf32 littleEndian, position, rest.length + 1, a, .truncated⟩

/-- The encoding of a text by its byte order mark, or by which of its first bytes are zero; and
the count of bytes of the mark. -/
def detect (bytes : Bytes) : Encoding × Nat :=
  if [0, 0, 0xFE, 0xFF].isPrefixOf bytes then (.utf32 false, 4)
  else if [0xFF, 0xFE, 0, 0].isPrefixOf bytes then (.utf32 true, 4)
  else if [0xFE, 0xFF].isPrefixOf bytes then (.utf16 false, 2)
  else if [0xFF, 0xFE].isPrefixOf bytes then (.utf16 true, 2)
  else if [0xEF, 0xBB, 0xBF].isPrefixOf bytes then (.utf8, 3)
  else match bytes with
    | a :: b :: c :: d :: _ =>
      if a = 0 then (if b = 0 then .utf32 false else .utf16 false, 0)
      else if b = 0 then (if c = 0 ∧ d = 0 then .utf32 true else .utf16 true, 0)
      else (.utf8, 0)
    | [a, b] =>
      if a = 0 then (.utf16 false, 0)
      else if b = 0 then (.utf16 true, 0)
      else (.utf8, 0)
    | _ => (.utf8, 0)

def decode (bytes : Bytes) : Except Fault Text :=
  let (encoding, mark) := detect bytes
  let body := bytes.drop mark
  match encoding with
  | .utf8 => decodeUtf8From true body.length 0 body
  | .utf16 littleEndian => decodeUtf16From littleEndian mark body
  | .utf32 littleEndian => decodeUtf32From littleEndian mark body

end AssertionGrant.Utf
