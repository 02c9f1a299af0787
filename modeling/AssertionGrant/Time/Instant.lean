import AssertionGrant.Number.Binary64
import AssertionGrant.Time.Span

/-!
Instants of universal time, in microseconds since the start of 1970, within the years 1 to 9999;
their calendar date; and instants written as a count of seconds.
-/

namespace AssertionGrant

structure Instant where
  micros : Int
  deriving DecidableEq, Repr, Inhabited

namespace Instant

def first : Int := -62135596800000000

def last : Int := 253402300799999999

def inRange (micros : Int) : Bool := decide (first ≤ micros) && decide (micros ≤ last)

def add? (t : Instant) (s : Span) : Option Instant :=
  if inRange (t.micros + s.micros) then some ⟨t.micros + s.micros⟩ else none

def since (later earlier : Instant) : Span := ⟨later.micros - earlier.micros⟩

structure Date where
  year : Int
  month : Nat
  day : Nat
  deriving DecidableEq, Repr

def dateOfDay (days : Int) : Date :=
  let z := days + 719468
  let era := z / 146097
  let dayOfEra := (z % 146097).toNat
  let yearOfEra := (dayOfEra - dayOfEra / 1460 + dayOfEra / 36524 - dayOfEra / 146096) / 365
  let dayOfYear := dayOfEra - (365 * yearOfEra + yearOfEra / 4 - yearOfEra / 100)
  let m := (5 * dayOfYear + 2) / 153
  let day := dayOfYear - (153 * m + 2) / 5 + 1
  let month := if m < 10 then m + 3 else m - 9
  ⟨yearOfEra + era * 400 + (if month ≤ 2 then 1 else 0), month, day⟩

def date (t : Instant) : Date := dateOfDay (t.micros / Span.microsPerDay)

def secondOfDay (t : Instant) : Nat := ((t.micros % Span.microsPerDay) / 1000000).toNat

def fraction (t : Instant) : Nat := (t.micros % 1000000).toNat

def clockText (t : Instant) : String :=
  let s := t.secondOfDay
  Span.twoDigits (s / 3600) ++ ":" ++ Span.twoDigits (s / 60 % 60) ++ ":" ++
    Span.twoDigits (s % 60)

def fourDigits (n : Nat) : String :=
  let ds := toString n
  String.ofList (List.replicate (4 - ds.length) '0') ++ ds

def dayText (d : Date) : String := Span.twoDigits d.month ++ "-" ++ Span.twoDigits d.day

def plainText (t : Instant) : String :=
  let d := t.date
  toString d.year ++ "-" ++ dayText d ++ "T" ++ t.clockText ++ "Z"

def offsetText (t : Instant) : String :=
  let d := t.date
  let micros := t.fraction
  fourDigits d.year.toNat ++ "-" ++ dayText d ++ "T" ++ t.clockText ++
    (if micros = 0 then "" else "." ++ Span.sixDigits micros) ++ "+00:00"

/-- The nearest whole second, a half to the later one, if the calendar reaches it. -/
def roundToSecond? (t : Instant) : Option Instant :=
  let base := t.micros - t.micros % 1000000
  if 500000 ≤ t.micros % 1000000 then
    if inRange (base + 1000000) then some ⟨base + 1000000⟩ else none
  else some ⟨base⟩

def seconds (t : Instant) : Binary64 := Binary64.ofRatio t.micros 1000000

def wholeSeconds (t : Instant) : Int := t.seconds.truncate?.getD 0

inductive Fault where
  | notANumber
  | year (n : Int)
  | beyondCalendar
  deriving DecidableEq, Repr

def ofSecondsAndMicros (whole : Int) (micros : Int) : Except Fault Instant :=
  let year := (dateOfDay (whole / 86400)).year
  if 1 ≤ year ∧ year ≤ 9999 then .ok ⟨whole * 1000000 + micros⟩
  else if year - 1900 < -2147483648 ∨ 2147483647 < year - 1900 then .error .beyondCalendar
  else .error (.year (if 2147483647 < year then year - 4294967296 else year))

/-- The instant that a count of seconds names. A fraction is scaled to microseconds with one
rounding of the product and rounded to the nearest, a tie to the even one. -/
def ofSeconds : Number → Except Fault Instant
  | .int z =>
    if z < -9223372036854775808 ∨ 9223372036854775807 < z then .error .beyondCalendar
    else ofSecondsAndMicros z 0
  | .float .nan => .error .notANumber
  | .float (.infinite _) => .error .beyondCalendar
  | .float x =>
    match x.split? with
    | none => .error .beyondCalendar
    | some (whole, rest) =>
      let scaled := ((rest.mul (.ofInt 1000000)).round?).getD 0
      let (whole, micros) :=
        if 1000000 ≤ scaled then (whole + 1, scaled - 1000000)
        else if scaled < 0 then (whole - 1, scaled + 1000000)
        else (whole, scaled)
      if whole < -9223372036854775808 ∨ 9223372036854775807 < whole then .error .beyondCalendar
      else ofSecondsAndMicros whole micros

end Instant

namespace Span

def seconds (s : Span) : Binary64 := Binary64.ofRatio s.micros 1000000

end Span
end AssertionGrant
