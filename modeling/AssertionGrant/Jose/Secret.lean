import AssertionGrant.Data.Splitting
import AssertionGrant.Jose.KeyLine
import AssertionGrant.Json.Search

/-!
What must not serve as a shared secret: anything that looks like a key, in whatever form. Whoever
knows the public half of a key could otherwise sign with it.
-/

namespace AssertionGrant.Secret

def labels : List String :=
  ["CERTIFICATE", "TRUSTED CERTIFICATE", "PRIVATE KEY", "PUBLIC KEY", "ENCRYPTED PRIVATE KEY",
   "OPENSSH PRIVATE KEY", "DSA PRIVATE KEY", "RSA PRIVATE KEY", "RSA PUBLIC KEY",
   "EC PRIVATE KEY", "DH PARAMETERS", "NEW CERTIFICATE REQUEST", "CERTIFICATE REQUEST",
   "SSH2 PUBLIC KEY", "SSH2 ENCRYPTED PRIVATE KEY", "X509 CRL"]

def boundaries (word label : String) : List Bytes :=
  ["-", " "].flatMap fun lead => ["-", " "].map fun trail =>
    Utf.encode ("----" ++ lead ++ word ++ " " ++ label ++ trail ++ "----")

def holdsSection (bytes : Bytes) (label : String) : Bool :=
  (boundaries "BEGIN" label).any fun first =>
    match Splitting.cut first bytes with
    | some (_, rest) => (boundaries "END" label).any (Splitting.contains · rest)
    | none => false

def holdsKeyFile (bytes : Bytes) : Bool :=
  Splitting.contains (Utf.encode "----") bytes && labels.any (holdsSection bytes)

inductive Fault where
  | empty
  | key
  | jsonKey
  deriving DecidableEq, Repr

def Fault.message : Fault → String
  | .empty => "HMAC key must not be empty."
  | .key =>
    "The specified key is an asymmetric key or x509 certificate and should not be used as an " ++
      "HMAC secret."
  | .jsonKey =>
    "The specified key looks like a JWK and should not be used directly as an HMAC secret. " ++
      "Load it via PyJWK / HMACAlgorithm.from_jwk first."

/-- The bytes, if they may serve as a secret. -/
def check [Json.Nesting] (bytes : Bytes) : Except Fault Bytes :=
  if bytes.isEmpty then .error .empty
  else if holdsKeyFile bytes || KeyLine.isLikely bytes then .error .key
  else if Json.looksToHave "kty" bytes then .error .jsonKey
  else .ok bytes

end AssertionGrant.Secret
