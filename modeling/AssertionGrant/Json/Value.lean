import AssertionGrant.Number.Binary64
import AssertionGrant.Text.Letter

/-!
JSON values. An object is a list of fields in the order in which their names first came; a name
occurs once.
-/

namespace AssertionGrant

inductive Json where
  | null
  | bool (b : Bool)
  | num (n : Number)
  | str (s : Text)
  | arr (items : List Json)
  | obj (fields : List (Text × Json))
  deriving Inhabited

abbrev Fields := List (Text × Json)

namespace Fields

def get? (fields : Fields) (name : Text) : Option Json :=
  (fields.find? (·.1 = name)).map (·.2)

def has (fields : Fields) (name : Text) : Bool := fields.any (·.1 = name)

def names (fields : Fields) : List Text := fields.map (·.1)

/-- The fields with one value set: in place if the name is there, else at the end. -/
def set : Fields → Text → Json → Fields
  | [], name, v => [(name, v)]
  | (n, w) :: rest, name, v => if n = name then (n, v) :: rest else (n, w) :: set rest name v

end Fields

namespace Json

def int (z : Int) : Json := .num (.int z)

/-- Whether a value counts as present: not null, not false, not zero and not empty. -/
def isTruthy : Json → Bool
  | .null => false
  | .bool b => b
  | .num (.int z) => z ≠ 0
  | .num (.float x) => !(x = .finite false 0 || x = .finite true 0)
  | .str s => !s.isEmpty
  | .arr items => !items.isEmpty
  | .obj fields => !fields.isEmpty

def number? : Json → Option Number
  | .num n => some n
  | .bool b => some (.int (if b then 1 else 0))
  | _ => none

/-- Whether two values are the same name for something. A truth value is the number that it is. -/
def isSameName (v w : Json) : Bool :=
  match v, w with
  | .null, .null => true
  | .str s, .str t => s == t
  | _, _ =>
    match v.number?, w.number? with
    | some a, some b => a.equal b
    | _, _ => false

def members : Json → Option (List Json)
  | .arr items => some items
  | .str s => some (s.map fun l => .str [l])
  | .obj fields => some (fields.map fun f => .str f.1)
  | _ => none

def isContainer : Json → Bool
  | .arr _ | .obj _ => true
  | _ => false

def str? : Json → Option Text
  | .str s => some s
  | _ => none

def fields? : Json → Option Fields
  | .obj fields => some fields
  | _ => none

end Json
end AssertionGrant
