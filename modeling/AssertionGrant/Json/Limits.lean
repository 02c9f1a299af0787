import AssertionGrant.Json.Reader

/-!
What a value has to keep to if it is to be written: the limits of the reader, on the nesting and on
the digits of integers.
-/

namespace AssertionGrant.Json

inductive Unwritable where
  | tooDeep
  | tooLong
  deriving DecidableEq, Repr

def Unwritable.message : Unwritable → String
  | .tooDeep => "maximum recursion depth exceeded while encoding a JSON object"
  | .tooLong =>
    s!"Exceeds the limit ({Numeral.digitLimit} digits) for integer string conversion;" ++
      " use sys.set_int_max_str_digits() to increase the limit"

def isTooLong (z : Int) : Bool :=
  decide (Numeral.digitLimit < (Nat.toDigits 10 z.natAbs).length)

mutual

/-- The first thing, in the order of writing, that keeps a value from being written. `depth` counts
the containers still allowed inside each other. -/
def unwritable? : Nat → Json → Option Unwritable
  | _, .num (.int z) => if isTooLong z then some .tooLong else none
  | 0, .arr _ | 0, .obj _ => some .tooDeep
  | depth + 1, .arr items => firstUnwritable? depth items
  | depth + 1, .obj fields => firstUnwritableField? depth fields
  | _, _ => none

def firstUnwritable? (depth : Nat) : List Json → Option Unwritable
  | [] => none
  | v :: rest => (unwritable? depth v).or (firstUnwritable? depth rest)

def firstUnwritableField? (depth : Nat) : List (Text × Json) → Option Unwritable
  | [] => none
  | (_, v) :: rest => (unwritable? depth v).or (firstUnwritableField? depth rest)

end

end AssertionGrant.Json
