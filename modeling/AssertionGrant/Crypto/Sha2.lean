import AssertionGrant.Data.Base64Url

/-!
The SHA-2 digests of 256, 384 and 512 bits, and the keyed digest built from them. A message is
padded with one set bit, zeros and its length, cut into blocks of sixteen words, and each block is
mixed into eight chaining words.
-/

namespace AssertionGrant.Crypto

inductive Hash where
  | sha256
  | sha384
  | sha512
  deriving DecidableEq, Repr

namespace Sha2

def roundConstants32 : Array UInt32 := #[
  0x428a2f98, 0x71374491, 0xb5c0fbcf, 0xe9b5dba5, 0x3956c25b, 0x59f111f1, 0x923f82a4,
  0xab1c5ed5, 0xd807aa98, 0x12835b01, 0x243185be, 0x550c7dc3, 0x72be5d74, 0x80deb1fe,
  0x9bdc06a7, 0xc19bf174, 0xe49b69c1, 0xefbe4786, 0x0fc19dc6, 0x240ca1cc, 0x2de92c6f,
  0x4a7484aa, 0x5cb0a9dc, 0x76f988da, 0x983e5152, 0xa831c66d, 0xb00327c8, 0xbf597fc7,
  0xc6e00bf3, 0xd5a79147, 0x06ca6351, 0x14292967, 0x27b70a85, 0x2e1b2138, 0x4d2c6dfc,
  0x53380d13, 0x650a7354, 0x766a0abb, 0x81c2c92e, 0x92722c85, 0xa2bfe8a1, 0xa81a664b,
  0xc24b8b70, 0xc76c51a3, 0xd192e819, 0xd6990624, 0xf40e3585, 0x106aa070, 0x19a4c116,
  0x1e376c08, 0x2748774c, 0x34b0bcb5, 0x391c0cb3, 0x4ed8aa4a, 0x5b9cca4f, 0x682e6ff3,
  0x748f82ee, 0x78a5636f, 0x84c87814, 0x8cc70208, 0x90befffa, 0xa4506ceb, 0xbef9a3f7,
  0xc67178f2]

def roundConstants64 : Array UInt64 := #[
  0x428a2f98d728ae22, 0x7137449123ef65cd, 0xb5c0fbcfec4d3b2f, 0xe9b5dba58189dbbc,
  0x3956c25bf348b538, 0x59f111f1b605d019, 0x923f82a4af194f9b, 0xab1c5ed5da6d8118,
  0xd807aa98a3030242, 0x12835b0145706fbe, 0x243185be4ee4b28c, 0x550c7dc3d5ffb4e2,
  0x72be5d74f27b896f, 0x80deb1fe3b1696b1, 0x9bdc06a725c71235, 0xc19bf174cf692694,
  0xe49b69c19ef14ad2, 0xefbe4786384f25e3, 0x0fc19dc68b8cd5b5, 0x240ca1cc77ac9c65,
  0x2de92c6f592b0275, 0x4a7484aa6ea6e483, 0x5cb0a9dcbd41fbd4, 0x76f988da831153b5,
  0x983e5152ee66dfab, 0xa831c66d2db43210, 0xb00327c898fb213f, 0xbf597fc7beef0ee4,
  0xc6e00bf33da88fc2, 0xd5a79147930aa725, 0x06ca6351e003826f, 0x142929670a0e6e70,
  0x27b70a8546d22ffc, 0x2e1b21385c26c926, 0x4d2c6dfc5ac42aed, 0x53380d139d95b3df,
  0x650a73548baf63de, 0x766a0abb3c77b2a8, 0x81c2c92e47edaee6, 0x92722c851482353b,
  0xa2bfe8a14cf10364, 0xa81a664bbc423001, 0xc24b8b70d0f89791, 0xc76c51a30654be30,
  0xd192e819d6ef5218, 0xd69906245565a910, 0xf40e35855771202a, 0x106aa07032bbd1b8,
  0x19a4c116b8d2d0c8, 0x1e376c085141ab53, 0x2748774cdf8eeb99, 0x34b0bcb5e19b48a8,
  0x391c0cb3c5c95a63, 0x4ed8aa4ae3418acb, 0x5b9cca4f7763e373, 0x682e6ff3d6b2b8a3,
  0x748f82ee5defb2fc, 0x78a5636f43172f60, 0x84c87814a1f0ab72, 0x8cc702081a6439ec,
  0x90befffa23631e28, 0xa4506cebde82bde9, 0xbef9a3f7b2c67915, 0xc67178f2e372532b,
  0xca273eceea26619c, 0xd186b8c721c0c207, 0xeada7dd6cde0eb1e, 0xf57d4f7fee6ed178,
  0x06f067aa72176fba, 0x0a637dc5a2c898a6, 0x113f9804bef90dae, 0x1b710b35131c471b,
  0x28db77f523047d84, 0x32caab7b40c72493, 0x3c9ebe0a15c9bebc, 0x431d67c49c100d4c,
  0x4cc5d4becb3e42b6, 0x597f299cfc657e2a, 0x5fcb6fab3ad6faec, 0x6c44198c4a475817]

def initial256 : List UInt32 := [
  0x6a09e667, 0xbb67ae85, 0x3c6ef372, 0xa54ff53a, 0x510e527f, 0x9b05688c, 0x1f83d9ab,
  0x5be0cd19]

def initial384 : List UInt64 := [
  0xcbbb9d5dc1059ed8, 0x629a292a367cd507, 0x9159015a3070dd17, 0x152fecd8f70e5939,
  0x67332667ffc00b31, 0x8eb44a8768581511, 0xdb0c2e0d64f98fa7, 0x47b5481dbefa4fa4]

def initial512 : List UInt64 := [
  0x6a09e667f3bcc908, 0xbb67ae8584caa73b, 0x3c6ef372fe94f82b, 0xa54ff53a5f1d36f1,
  0x510e527fade682d1, 0x9b05688c2b3e6c1f, 0x1f83d9abfb41bd6b, 0x5be0cd19137e2179]

def bigEndian (width n : Nat) : Bytes :=
  (List.range width).reverse.map fun i => UInt8.ofNat (n >>> (8 * i))

def ofBigEndian (bytes : Bytes) : Nat := bytes.foldl (fun n b => n * 256 + b.toNat) 0

def padded (blockSize lengthSize : Nat) (message : Bytes) : Bytes :=
  let used := message.length + 1 + lengthSize
  let zeros := (blockSize - used % blockSize) % blockSize
  message ++ 0x80 :: (List.replicate zeros 0 ++ bigEndian lengthSize (8 * message.length))

def chunks {α : Type} (n : Nat) : Nat → List α → List (List α)
  | 0, _ => []
  | count + 1, xs => xs.take n :: chunks n count (xs.drop n)

def rotr32 (x : UInt32) (k : UInt32) : UInt32 := (x >>> k) ||| (x <<< (32 - k))

def rotr64 (x : UInt64) (k : UInt64) : UInt64 := (x >>> k) ||| (x <<< (64 - k))

def schedule32 (block : List UInt32) : Array UInt32 :=
  (List.range 48).foldl (fun w i =>
    let a := w.getD (i + 1) 0
    let b := w.getD (i + 14) 0
    let s0 := rotr32 a 7 ^^^ rotr32 a 18 ^^^ (a >>> 3)
    let s1 := rotr32 b 17 ^^^ rotr32 b 19 ^^^ (b >>> 10)
    w.push (w.getD i 0 + s0 + w.getD (i + 9) 0 + s1)) block.toArray

def schedule64 (block : List UInt64) : Array UInt64 :=
  (List.range 64).foldl (fun w i =>
    let a := w.getD (i + 1) 0
    let b := w.getD (i + 14) 0
    let s0 := rotr64 a 1 ^^^ rotr64 a 8 ^^^ (a >>> 7)
    let s1 := rotr64 b 19 ^^^ rotr64 b 61 ^^^ (b >>> 6)
    w.push (w.getD i 0 + s0 + w.getD (i + 9) 0 + s1)) block.toArray

def round32 (s : List UInt32) (wk : UInt32) : List UInt32 :=
  match s with
  | [a, b, c, d, e, f, g, h] =>
    let s1 := rotr32 e 6 ^^^ rotr32 e 11 ^^^ rotr32 e 25
    let t1 := h + s1 + ((e &&& f) ^^^ (~~~e &&& g)) + wk
    let s0 := rotr32 a 2 ^^^ rotr32 a 13 ^^^ rotr32 a 22
    let t2 := s0 + ((a &&& b) ^^^ (a &&& c) ^^^ (b &&& c))
    [t1 + t2, a, b, c, d + t1, e, f, g]
  | _ => s

def round64 (s : List UInt64) (wk : UInt64) : List UInt64 :=
  match s with
  | [a, b, c, d, e, f, g, h] =>
    let s1 := rotr64 e 14 ^^^ rotr64 e 18 ^^^ rotr64 e 41
    let t1 := h + s1 + ((e &&& f) ^^^ (~~~e &&& g)) + wk
    let s0 := rotr64 a 28 ^^^ rotr64 a 34 ^^^ rotr64 a 39
    let t2 := s0 + ((a &&& b) ^^^ (a &&& c) ^^^ (b &&& c))
    [t1 + t2, a, b, c, d + t1, e, f, g]
  | _ => s

def compress32 (state block : List UInt32) : List UInt32 :=
  let w := schedule32 block
  let mixed := (List.range 64).foldl
    (fun s i => round32 s (w.getD i 0 + roundConstants32.getD i 0)) state
  List.zipWith (· + ·) state mixed

def compress64 (state block : List UInt64) : List UInt64 :=
  let w := schedule64 block
  let mixed := (List.range 80).foldl
    (fun s i => round64 s (w.getD i 0 + roundConstants64.getD i 0)) state
  List.zipWith (· + ·) state mixed

def digest32 (initial : List UInt32) (message : Bytes) : Bytes :=
  let data := padded 64 8 message
  let words := (chunks 4 (data.length / 4) data).map fun b => UInt32.ofNat (ofBigEndian b)
  let final := (chunks 16 (words.length / 16) words).foldl compress32 initial
  final.flatMap fun w => bigEndian 4 w.toNat

def digest64 (initial : List UInt64) (message : Bytes) : Bytes :=
  let data := padded 128 16 message
  let words := (chunks 8 (data.length / 8) data).map fun b => UInt64.ofNat (ofBigEndian b)
  let final := (chunks 16 (words.length / 16) words).foldl compress64 initial
  final.flatMap fun w => bigEndian 8 w.toNat

end Sha2

namespace Hash

def size : Hash → Nat
  | .sha256 => 32
  | .sha384 => 48
  | .sha512 => 64

def blockSize : Hash → Nat
  | .sha256 => 64
  | .sha384 | .sha512 => 128

def digest : Hash → Bytes → Bytes
  | .sha256, message => Sha2.digest32 Sha2.initial256 message
  | .sha384, message => (Sha2.digest64 Sha2.initial384 message).take 48
  | .sha512, message => Sha2.digest64 Sha2.initial512 message

/-- The keyed digest: a key longer than a block is replaced by its digest. -/
def keyed (h : Hash) (key message : Bytes) : Bytes :=
  let key := if h.blockSize < key.length then h.digest key else key
  let block := key ++ List.replicate (h.blockSize - key.length) 0
  h.digest (block.map (· ^^^ 0x5c) ++ h.digest (block.map (· ^^^ 0x36) ++ message))

end Hash
end AssertionGrant.Crypto
