import AssertionGrant.Claims
import AssertionGrant.Jose.Compact

/-!
The assertion of a request: a signed token that is read first without any check, to find out whose
key to look for, and then verified with that key. Its dates and audience are not looked at here.
-/

namespace AssertionGrant

namespace Jwk

def Fault.toFault (f : Jwk.Fault) : AssertionGrant.Fault :=
  match f with
  | .notAnObject => ⟨.wrongObject, f.message⟩
  | .unknownAlgorithm => ⟨.unsupportedKey, f.message⟩
  | .unsecured => ⟨.notImplemented, f.message⟩
  | .missing _ => ⟨.missingName, f.message⟩
  | .incomparable => ⟨.wrongType, f.message⟩
  | _ => ⟨.invalidKey, f.message⟩

end Jwk

/-- A fault of a key that is no reason to refuse what the key was needed for. -/
def KeyFault.toFault? (f : KeyFault) : Option Fault :=
  match f with
  | .wrongHalf => some ⟨.wrongObject, f.message⟩
  | .file .unknownFamily | .line (.kind _) => some ⟨.unsupportedAlgorithm, f.message⟩
  | .line .packed => some ⟨.notImplemented, f.message⟩
  | _ => none

namespace Assertion

def unparsable (f : Compact.Fault) : Refusal :=
  ⟨.invalidGrant,
   some "Unable to parse JSON Web Token passed in \"assertion\" request parameter.",
   some f.message⟩

def withoutClaims (f : Compact.Fault) : Refusal :=
  ⟨.invalidGrant,
   some "Looks like there are no claims in JWT in \"assertion\" request parameter.",
   some f.message⟩

def unverifiable (debug : Text) : Refusal :=
  ⟨.invalidGrant, some "Unable to verify the integrity of the 'assertion' value.", some debug⟩

variable [Json.Nesting]

def parse (raw : String) : Except Refusal Compact := (Compact.parse raw).mapError unparsable

def keyId (t : Compact) : Text := ((t.header.get? "kid").bind Json.str?).getD ""

def readClaims (t : Compact) : Except Refusal Fields :=
  t.unverifiedClaims.mapError withoutClaims

/-- The claims of an assertion whose signature the key verifies. A key that is no use at all is no
reason to refuse the assertion, so it is a fault. -/
def verify (t : Compact) (key : KeyMaterial) (allowed : List Text) : Except Failure Fields :=
  match t.verifiedClaims key allowed with
  | .ok fields => .ok fields
  | .error (.key f) =>
    match f.toFault? with
    | some fault => .error (.fault fault)
    | none => .error (.refusal (unverifiable f.message))
  | .error f => .error (.refusal (unverifiable f.message))

def claimsOf (fields : Fields) : Except Refusal Claims :=
  (Claims.ofFields fields).mapError fun p => unverifiable p.message

end Assertion
end AssertionGrant
