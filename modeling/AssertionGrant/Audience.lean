import AssertionGrant.Failure
import AssertionGrant.Url

/-!
Requested audiences held against the allowed ones: by equality, or as web addresses under an
allowed address. The first requested audience that matches nothing is refused, and so is one that
cannot be read.
-/

namespace AssertionGrant.Audience

inductive Strategy where
  | exact
  | nested
  deriving DecidableEq, Repr

def notAllowed (requested : Text) : Refusal :=
  .hinted .invalidRequest ("Requested audience \"" ++ requested ++ "\" has not been whitelisted.")

def unreadable (which text : Text) (f : Url.Fault) : Refusal :=
  ⟨.invalidRequest, some ("Unable to parse " ++ which ++ " audience \"" ++ text ++ "\"."),
   some f.message⟩

/-- Whether an address lies under one of the allowed ones, which are read one after the other until
then. -/
def isAllowed (u : Url) : List Text → Except Refusal Bool
  | [] => .ok false
  | allowed :: rest =>
    match Url.parse allowed with
    | .error f => .error (unreadable "whitelisted" allowed f)
    | .ok base => if u.isUnder base then .ok true else isAllowed u rest

def checkNested (allowed : List Text) (requested : Text) : Except Refusal Unit :=
  match Url.parse requested with
  | .error f => .error (unreadable "requested" requested f)
  | .ok u =>
    match isAllowed u allowed with
    | .error r => .error r
    | .ok true => .ok ()
    | .ok false => .error (notAllowed requested)

def checkExact (allowed : List Text) (requested : Text) : Except Refusal Unit :=
  if allowed.contains requested then .ok () else .error (notAllowed requested)

def checkOne : Strategy → List Text → Text → Except Refusal Unit
  | .exact => checkExact
  | .nested => checkNested

def check (strategy : Strategy) (allowed : List Text) : List Text → Except Refusal Unit
  | [] => .ok ()
  | requested :: rest => do
    checkOne strategy allowed requested
    check strategy allowed rest

abbrev Rule := List Text → List Text → Except Failure Unit

def Strategy.rule (strategy : Strategy) : Rule := fun allowed requested =>
  (check strategy allowed requested).mapError .refusal

instance : Coe Strategy Rule := ⟨Strategy.rule⟩

end AssertionGrant.Audience
