/-!
Double precision numbers as exact values: a finite number is a whole multiple of 2⁻¹⁰⁷⁴, the
smallest positive one, so comparison is comparison of integers and rounding is one division of
natural numbers. Every operation rounds its exact result once, to the nearest representable value
and to the even one of two that are equally near.
-/

namespace AssertionGrant

/-- A double precision number; `units` counts multiples of 2⁻¹⁰⁷⁴. -/
inductive Binary64 where
  | nan
  | infinite (negative : Bool)
  | finite (negative : Bool) (units : Nat)
  deriving DecidableEq, Repr, Inhabited

def roundedQuotient (n d : Nat) : Nat :=
  let q := n / d
  let r := n % d
  if 2 * r < d then q
  else if d < 2 * r then q + 1
  else if q % 2 = 0 then q else q + 1

namespace Binary64

def unit : Nat := Nat.pow 2 1074

def bound : Nat := Nat.pow 2 2098

/-- The distance of neighbouring values at `units`, which keeps 53 significant bits. -/
def spacing (units : Nat) : Nat := Nat.pow 2 (units.log2 - 52)

def nearestUnits (n d : Nat) : Nat :=
  let s := spacing (n / d)
  roundedQuotient n (d * s) * s

def ofUnits (negative : Bool) (n d : Nat) : Binary64 :=
  let u := nearestUnits n d
  if bound ≤ u then .infinite negative else .finite negative u

def ofRatio (p : Int) (q : Nat) : Binary64 :=
  ofUnits (decide (p < 0)) (p.natAbs * unit) q

def ofInt (z : Int) : Binary64 := ofRatio z 1

def zero : Binary64 := .finite false 0

/-- The order key: a signed count of units, with the infinities at the bound. -/
def key : Binary64 → Option Int
  | .nan => none
  | .infinite negative => some (if negative then -(bound : Int) else bound)
  | .finite negative u => some (if negative then -(u : Int) else u)

def le (a b : Binary64) : Bool :=
  match a.key, b.key with
  | some x, some y => decide (x ≤ y)
  | _, _ => false

def lt (a b : Binary64) : Bool :=
  match a.key, b.key with
  | some x, some y => decide (x < y)
  | _, _ => false

def neg : Binary64 → Binary64
  | .nan => .nan
  | .infinite negative => .infinite (!negative)
  | .finite negative u => .finite (!negative) u

def add : Binary64 → Binary64 → Binary64
  | .nan, _ | _, .nan => .nan
  | .infinite a, .infinite b => if a = b then .infinite a else .nan
  | .infinite a, .finite _ _ => .infinite a
  | .finite _ _, .infinite b => .infinite b
  | .finite a u, .finite b v =>
    let total : Int := (if a then -(u : Int) else u) + (if b then -(v : Int) else v)
    if total = 0 then .finite (a && b && u = 0 && v = 0) 0
    else ofUnits (decide (total < 0)) total.natAbs 1

def sub (a b : Binary64) : Binary64 := a.add b.neg

def mul : Binary64 → Binary64 → Binary64
  | .finite a u, .finite b v => ofUnits (a != b) (u * v) unit
  | _, _ => .nan

def truncate? : Binary64 → Option Int
  | .finite negative u =>
    let whole : Int := (u / unit : Nat)
    some (if negative then -whole else whole)
  | _ => none

def ceil? : Binary64 → Option Int
  | .finite negative u =>
    let whole : Int := (u / unit : Nat)
    some (if negative then -whole else if u % unit = 0 then whole else whole + 1)
  | _ => none

def split? : Binary64 → Option (Int × Binary64)
  | .finite negative u =>
    let whole : Int := (u / unit : Nat)
    some (if negative then -whole else whole, .finite negative (u % unit))
  | _ => none

def round? : Binary64 → Option Int
  | .finite negative u =>
    let whole : Int := roundedQuotient u unit
    some (if negative then -whole else whole)
  | _ => none

end Binary64

inductive Number where
  | int (z : Int)
  | float (x : Binary64)
  deriving DecidableEq, Repr, Inhabited

namespace Number

def toBinary64 : Number → Binary64
  | .int z => .ofInt z
  | .float x => x

def equal : Number → Number → Bool
  | .int a, .int b => a == b
  | .int z, .float (.finite negative u) | .float (.finite negative u), .int z =>
    z * Binary64.unit == if negative then -(u : Int) else u
  | .float a, .float b => a.key.isSome && a.key == b.key
  | _, _ => false

def isTooLarge : Number → Bool
  | .int z =>
    match Binary64.ofInt z with
    | .infinite _ => true
    | _ => false
  | .float _ => false

/-- Above zero; not-a-number counts as positive because it is not at most zero. -/
def notAtMostZero : Number → Bool
  | .int z => decide (0 < z)
  | .float x => !x.le .zero

end Number
end AssertionGrant
