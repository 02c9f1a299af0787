import AssertionGrant.Data.Base64Url

/-!
A sponge over 1600 bits that drinks a message in blocks and gives out as many bytes as are asked
for. The state is 25 words of 64 bits, five rows of five; every round mixes columns, turns and moves
words, combines words of a row, and breaks the symmetry with a constant.
-/

namespace AssertionGrant.Crypto.Keccak

abbrev State := Array UInt64

def word (s : State) (x y : Nat) : UInt64 := s.getD (x % 5 + 5 * (y % 5)) 0

def ofWords (f : Nat → Nat → UInt64) : State :=
  Array.ofFn fun (i : Fin 25) => f (i.val % 5) (i.val / 5)

def rotated (w : UInt64) (n : Nat) : UInt64 :=
  if n % 64 = 0 then w
  else (w <<< UInt64.ofNat (n % 64)) ||| (w >>> UInt64.ofNat (64 - n % 64))

def turns : Array Nat := #[
  0, 1, 62, 28, 27, 36, 44, 6, 55, 20, 3, 10, 43, 25, 39, 41, 45, 15, 21, 8, 18, 2, 61, 56, 14]

def roundConstants : List UInt64 := [
  0x0000000000000001, 0x0000000000008082, 0x800000000000808a, 0x8000000080008000,
  0x000000000000808b, 0x0000000080000001, 0x8000000080008081, 0x8000000000008009,
  0x000000000000008a, 0x0000000000000088, 0x0000000080008009, 0x000000008000000a,
  0x000000008000808b, 0x800000000000008b, 0x8000000000008089, 0x8000000000008003,
  0x8000000000008002, 0x8000000000000080, 0x000000000000800a, 0x800000008000000a,
  0x8000000080008081, 0x8000000000008080, 0x0000000080000001, 0x8000000080008008]

def mixColumns (s : State) : State :=
  let parity : Array UInt64 := Array.ofFn fun (x : Fin 5) =>
    word s x.val 0 ^^^ word s x.val 1 ^^^ word s x.val 2 ^^^ word s x.val 3 ^^^ word s x.val 4
  ofWords fun x y =>
    word s x y ^^^ parity.getD ((x + 4) % 5) 0 ^^^ rotated (parity.getD ((x + 1) % 5) 0) 1

/-- Every word is turned by its own distance and moved to its new place. -/
def turnAndMove (s : State) : State :=
  ofWords fun x y =>
    let column := (x + 3 * y) % 5
    rotated (word s column x) (turns.getD (column + 5 * x) 0)

def combineRows (s : State) : State :=
  ofWords fun x y => word s x y ^^^ (~~~word s (x + 1) y &&& word s (x + 2) y)

def round (s : State) (constant : UInt64) : State :=
  let mixed := combineRows (turnAndMove (mixColumns s))
  mixed.setIfInBounds 0 (mixed.getD 0 0 ^^^ constant)

def permute (s : State) : State := roundConstants.foldl round s

def rate : Nat := 136

def wordOf (bytes : Bytes) : UInt64 :=
  bytes.foldr (fun b w => (w <<< 8) ||| b.toUInt64) 0

def drink (s : State) (block : Array UInt8) : State :=
  permute (Array.ofFn fun (i : Fin 25) =>
    s.getD i.val 0 ^^^ wordOf ((List.range 8).map fun k => block.getD (8 * i.val + k) 0))

def padded (message : Bytes) : Bytes :=
  let spare := rate - (message.length + 1) % rate
  if spare = rate then message ++ [0x1f ^^^ 0x80]
  else message ++ 0x1f :: (List.replicate (spare - 1) 0 ++ [0x80])

def blocks : Nat → Bytes → List (Array UInt8)
  | 0, _ => []
  | count + 1, bytes => (bytes.take rate).toArray :: blocks count (bytes.drop rate)

def shown (s : State) : Bytes :=
  (List.range rate).map fun i => (s.getD (i / 8) 0 >>> UInt64.ofNat (8 * (i % 8))).toUInt8

def give : Nat → State → Bytes
  | 0, _ => []
  | count + 1, s => shown s ++ give count (permute s)

def shake256 (size : Nat) (message : Bytes) : Bytes :=
  let data := padded message
  let state := (blocks (data.length / rate) data).foldl drink (Array.replicate 25 0)
  (give ((size + rate - 1) / rate) state).take size

end AssertionGrant.Crypto.Keccak
