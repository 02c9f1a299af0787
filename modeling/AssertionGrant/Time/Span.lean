/-!
Lengths of time in whole microseconds, and their text: days, when there are any, and a time of day
that is never negative.
-/

namespace AssertionGrant

structure Span where
  micros : Int
  deriving DecidableEq, Repr, Inhabited

namespace Span

def ofSeconds (n : Int) : Span := ⟨n * 1000000⟩

def microsPerDay : Int := 86400000000

/-- The largest count of days that a span may have, either way. -/
def dayLimit : Int := 999999999

inductive Fault where
  | tooManyDays (days : Int)
  | beyondCount
  deriving DecidableEq, Repr

def Fault.message : Fault → String
  | .tooManyDays days => s!"days={days}; must have magnitude <= {dayLimit}"
  | .beyondCount => "Python int too large to convert to C int"

def ofMicros? (n : Int) : Except Fault Span :=
  let days := n / microsPerDay
  if days < -2147483648 ∨ 2147483647 < days then .error .beyondCount
  else if days < -dayLimit ∨ dayLimit < days then .error (.tooManyDays days)
  else .ok ⟨n⟩

def ofSeconds? (n : Int) : Except Fault Span := ofMicros? (n * 1000000)

def twoDigits (n : Nat) : String :=
  if n < 10 then "0" ++ toString n else toString n

def sixDigits (n : Nat) : String :=
  let ds := toString n
  String.ofList (List.replicate (6 - ds.length) '0') ++ ds

def text (s : Span) : String :=
  let days := s.micros / microsPerDay
  let rest := (s.micros % microsPerDay).toNat
  let seconds := rest / 1000000
  let micros := rest % 1000000
  let dayText :=
    if days = 0 then "" else s!"{days} day" ++ (if days.natAbs = 1 then ", " else "s, ")
  dayText ++ toString (seconds / 3600) ++ ":" ++ twoDigits (seconds / 60 % 60) ++ ":" ++
    twoDigits (seconds % 60) ++ (if micros = 0 then "" else "." ++ sixDigits micros)

end Span
end AssertionGrant
