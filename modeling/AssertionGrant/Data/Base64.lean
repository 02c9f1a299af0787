import AssertionGrant.Data.Base64Url

/-!
Bytes as text in the plain alphabet of 64 characters with padding, and three ways of reading it. The
lenient one passes over characters outside the alphabet, and the padding of a group ends the text.
The strict one takes nothing but letters and the padding that ends them. The canonical one also
refuses bits that no byte holds, and tells what is wrong and where.
-/

namespace AssertionGrant.Base64

def letter (n : Nat) : Char :=
  if n = 62 then '+' else if n = 63 then '/' else Base64Url.letter n

def index? (c : Char) : Option Nat :=
  if c = '+' then some 62
  else if c = '/' then some 63
  else if c = '-' ∨ c = '_' then none
  else Base64Url.index? c

def plainLetter (c : Char) : Char := if c = '-' then '+' else if c = '_' then '/' else c

def encode (bytes : Bytes) : String :=
  let cs := (Base64Url.encodeChars bytes).map plainLetter
  String.ofList (cs ++ List.replicate ((4 - cs.length % 4) % 4) '=')

/-- The indices of the letters up to the padding that completes a group. `place` counts the letters
of the group at hand and `pads` the padding since the last letter. -/
def indices : Nat → Nat → List Char → List Nat
  | _, _, [] => []
  | place, pads, c :: rest =>
    if c = '=' then
      if 2 ≤ place ∧ 4 ≤ place + (pads + 1) then []
      else indices place (if 2 ≤ place then pads + 1 else pads) rest
    else match index? c with
      | some n => n :: indices ((place + 1) % 4) 0 rest
      | none => indices place pads rest

def isPadded : Nat → Nat → List Char → Bool
  | _, _, [] => false
  | place, pads, c :: rest =>
    if c = '=' then
      if 2 ≤ place ∧ 4 ≤ place + (pads + 1) then true
      else isPadded place (if 2 ≤ place then pads + 1 else pads) rest
    else match index? c with
      | some _ => isPadded ((place + 1) % 4) 0 rest
      | none => isPadded place pads rest

def bytesOf : List Nat → Bytes
  | a :: b :: c :: d :: rest =>
    let n := a * 262144 + b * 4096 + c * 64 + d
    UInt8.ofNat (n / 65536) :: UInt8.ofNat (n / 256 % 256) :: UInt8.ofNat (n % 256) :: bytesOf rest
  | [a, b, c] =>
    let n := a * 4096 + b * 64 + c
    [UInt8.ofNat (n / 1024), UInt8.ofNat (n / 4 % 256)]
  | [a, b] => [UInt8.ofNat ((a * 64 + b) / 16)]
  | _ => []

def decode (cs : List Char) : Option Bytes :=
  let ns := indices 0 0 cs
  if ns.length % 4 = 0 || isPadded 0 0 cs then some (bytesOf ns) else none

def decodeEither (s : String) : Option Bytes :=
  let missing := (4 - s.utf8ByteSize % 4) % 4
  decode (s.toList.map plainLetter ++ List.replicate missing '=')

def endsIn (letters pads : Nat) : Bool :=
  match letters % 4 with
  | 0 => letters ≠ 0 || pads = 0
  | 2 => pads = 2
  | 3 => pads = 1
  | _ => false

/-- The strict reading: letters and then their padding. -/
def decodeStrict (s : String) : Option Bytes :=
  let cs := s.toList
  let letters := cs.takeWhile (· ≠ '=')
  let pads := cs.drop letters.length
  if pads.all (· == '=') && endsIn letters.length pads.length then
    (letters.mapM index?).map bytesOf
  else none

inductive Fault where
  | character (place : Nat) (c : UInt8)
  | length (size : Nat)
  | lastLetter (place : Nat) (c : UInt8)
  | padding
  deriving DecidableEq, Repr

def Fault.message : Fault → String
  | .character place c => s!"InvalidByte({place}, {c.toNat})"
  | .length size => s!"InvalidLength({size})"
  | .lastLetter place c => s!"InvalidLastSymbol({place}, {c.toNat})"
  | .padding => "InvalidPadding"

def indexOfByte? (b : UInt8) : Option Nat := index? (Char.ofNat b.toNat)

def indicesFrom (place : Nat) : Bytes → Except Fault (List Nat)
  | [] => .ok []
  | b :: rest =>
    match indexOfByte? b with
    | some n => (indicesFrom (place + 1) rest).map (n :: ·)
    | none => .error (.character place b)

def lastGroup (place : Nat) (group : Bytes) : Except Fault Bytes := do
  let pad : UInt8 := 61
  let letters := group.takeWhile (· ≠ pad)
  let ns ← indicesFrom place letters
  let rest := group.drop letters.length
  if !rest.isEmpty && (letters.length < 2 || rest.any (· ≠ pad)) then
    throw (.character (place + letters.length) pad)
  if !group.isEmpty && letters.length < 2 then throw (.length (place + letters.length))
  if group.length % 4 ≠ 0 then throw .padding
  let last := ns.getLastD 0
  let spare := if ns.length = 2 then last % 16 else if ns.length = 3 then last % 4 else 0
  if spare ≠ 0 then throw (.lastLetter (place + ns.length - 1) (letters.getLastD 0))
  pure (bytesOf ns)

def decodeCanonical (bytes : Bytes) : Except Fault Bytes := do
  let extra := bytes.length % 4
  let last := bytes.getLastD 61
  if extra = 1 && last ≠ 61 && (indexOfByte? last).isNone then
    throw (.character (bytes.length - 1) last)
  let place := bytes.length - if extra = 0 then 4 else extra
  let ns ← indicesFrom 0 (bytes.take place)
  let tail ← lastGroup place (bytes.drop place)
  pure (bytesOf ns ++ tail)

end AssertionGrant.Base64
