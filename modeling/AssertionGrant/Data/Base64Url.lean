/-!
Bytes as text in the URL-safe alphabet of 64 characters. Reading is strict: padding only where it
completes the last group, no foreign character, and no bit set that no byte holds.
-/

namespace AssertionGrant

abbrev Bytes := List UInt8

namespace Base64Url

def letter (n : Nat) : Char :=
  if n < 26 then Char.ofNat (65 + n)
  else if n < 52 then Char.ofNat (71 + n)
  else if n < 62 then Char.ofNat (n - 4)
  else if n = 62 then '-'
  else '_'

def index? (c : Char) : Option Nat :=
  let n := c.toNat
  if 65 ≤ n ∧ n ≤ 90 then some (n - 65)
  else if 97 ≤ n ∧ n ≤ 122 then some (n - 71)
  else if 48 ≤ n ∧ n ≤ 57 then some (n + 4)
  else if c = '-' then some 62
  else if c = '_' then some 63
  else none

def encodeChars : Bytes → List Char
  | a :: b :: c :: rest =>
    let n := a.toNat * 65536 + b.toNat * 256 + c.toNat
    letter (n / 262144) :: letter (n / 4096 % 64) :: letter (n / 64 % 64) :: letter (n % 64) ::
      encodeChars rest
  | [a, b] =>
    let n := a.toNat * 1024 + b.toNat * 4
    [letter (n / 4096), letter (n / 64 % 64), letter (n % 64)]
  | [a] =>
    let n := a.toNat * 16
    [letter (n / 64), letter (n % 64)]
  | [] => []

def encode (bytes : Bytes) : String := String.ofList (encodeChars bytes)

def byte (n : Nat) : UInt8 := UInt8.ofNat n

/-- The bytes of groups of four indices; a shorter last group must leave no bit over. -/
def decodeIndices : List Nat → Option Bytes
  | a :: b :: c :: d :: rest =>
    let n := a * 262144 + b * 4096 + c * 64 + d
    (decodeIndices rest).map fun more =>
      byte (n / 65536) :: byte (n / 256 % 256) :: byte (n % 256) :: more
  | [a, b, c] =>
    let n := a * 4096 + b * 64 + c
    if n % 4 = 0 then some [byte (n / 1024), byte (n / 4 % 256)] else none
  | [a, b] =>
    let n := a * 64 + b
    if n % 16 = 0 then some [byte (n / 16)] else none
  | [_] => none
  | [] => some []

def unpadded (cs : List Char) : List Char :=
  if cs.length % 4 = 0 then
    match cs.reverse with
    | '=' :: '=' :: rest => rest.reverse
    | '=' :: rest => rest.reverse
    | _ => cs
  else cs

def decodeChars (cs : List Char) : Option Bytes :=
  ((unpadded cs).mapM index?).bind decodeIndices

def decode (s : String) : Option Bytes := decodeChars s.toList

end Base64Url
end AssertionGrant
