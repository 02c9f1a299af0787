import AssertionGrant.Data.Base64
import AssertionGrant.Data.Splitting
import AssertionGrant.Jose.Material
import AssertionGrant.Text.Utf

/-!
Public keys on one line: the name of the kind of key, a blank, and letters that spell the name once
more and then the numbers of the key, each after its length.
-/

namespace AssertionGrant.KeyLine

open Crypto

inductive Fault where
  | line
  | kind (name : Bytes)
  | letters
  | data
  | kindsDiffer
  | curvesDiffer
  | packed
  | pointLength
  | point
  | trailing
  deriving DecidableEq, Repr

def Fault.message : Fault → String
  | .line => "Invalid line format"
  | .kind _ => "the kind of key is not known"
  | .letters => "Invalid format"
  | .data => "Invalid data"
  | .kindsDiffer => "Invalid key format"
  | .curvesDiffer => "Curve name mismatch"
  | .packed => "Need uncompressed point"
  | .pointLength => "An Ed25519 public key is 32 bytes long"
  | .point => "Invalid EC key."
  | .trailing => "Corrupt data: unparsed data"

def isBlank (b : UInt8) : Bool := b = 32 || (9 ≤ b && b ≤ 13)

def wordsOf (line : Bytes) : Option (Bytes × Bytes) :=
  let kind := line.takeWhile (!isBlank ·)
  let rest := line.drop kind.length
  let gap := rest.takeWhile fun b => b = 32 || b = 9
  let letters := (rest.drop gap.length).takeWhile (!isBlank ·)
  if kind.isEmpty || gap.isEmpty || letters.isEmpty then none else some (kind, letters)

def readPart (bytes : Bytes) : Except Fault (Bytes × Bytes) :=
  let rest := bytes.drop 4
  let size := Sha2.ofBigEndian (bytes.take 4)
  if bytes.length < 4 ∨ rest.length < size then .error .data
  else .ok (rest.take size, rest.drop size)

def readNumber (bytes : Bytes) : Except Fault (Nat × Bytes) := do
  let (digits, rest) ← readPart bytes
  if 0x80 ≤ digits.headD 0 then throw .data
  pure (Sha2.ofBigEndian digits, rest)

def readRsa (bytes : Bytes) : Except Fault (KeyMaterial × Bytes) := do
  let (e, rest) ← readNumber bytes
  let (n, rest) ← readNumber rest
  let key : Rsa.PublicKey := ⟨n, e⟩
  if key.isPlausible then pure (.rsaPublic key, rest) else throw .data

def readEd25519 (bytes : Bytes) : Except Fault (KeyMaterial × Bytes) := do
  let (point, rest) ← readPart bytes
  if point.length = 32 then pure (.ed25519Public point, rest) else throw .pointLength

def readEc (name : String) (c : Curve) (bytes : Bytes) : Except Fault (KeyMaterial × Bytes) := do
  let (curve, rest) ← readPart bytes
  let (point, rest) ← readPart rest
  if curve ≠ Utf.encode name then throw .curvesDiffer
  if point.headD 4 ≠ 4 then throw .packed
  match c.pointOf? point with
  | some (x, y) => pure (.ecPublic c x y, rest)
  | none => throw .point

def readForeign (bytes : Bytes) : Except Fault (KeyMaterial × Bytes) := do
  let (_, rest) ← readNumber bytes
  let (_, rest) ← readNumber rest
  let (_, rest) ← readNumber rest
  let (_, rest) ← readNumber rest
  pure (.foreign, rest)

def kinds : List (String × (Bytes → Except Fault (KeyMaterial × Bytes))) :=
  [("ssh-rsa", readRsa), ("ssh-ed25519", readEd25519), ("ssh-dss", readForeign),
   ("ecdsa-sha2-nistp256", readEc "nistp256" .secp256r1),
   ("ecdsa-sha2-nistp384", readEc "nistp384" .secp384r1),
   ("ecdsa-sha2-nistp521", readEc "nistp521" .secp521r1)]

def load (line : Bytes) : Except Fault KeyMaterial := do
  let some (kind, letters) := wordsOf line | throw .line
  let some (_, reader) := kinds.find? (Utf.encode ·.1 == kind) | throw (.kind kind)
  let some bytes := Base64.decode (letters.map fun b => Char.ofNat b.toNat) | throw .letters
  let (inner, rest) ← readPart bytes
  if inner ≠ kind then throw .kindsDiffer
  let (key, rest) ← reader rest
  if rest.isEmpty then pure key else throw .trailing

/-- What names of kinds end in when a certificate takes the place of the key. -/
def certificateEnd : Bytes := Utf.encode "-cert-v01@openssh.com"

def isLikely (bytes : Bytes) : Bool :=
  kinds.any (fun kind => (Utf.encode kind.1).isPrefixOf bytes) ||
    match wordsOf bytes with
    | some (kind, _) => certificateEnd.isSuffixOf kind
    | none => false

end AssertionGrant.KeyLine
