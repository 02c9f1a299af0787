import AssertionGrant.Text.Blank

/-!
Internet addresses as texts: four decimal numbers, or eight groups of hexadecimal digits of which
one run of zero groups may be left out.
-/

namespace AssertionGrant.Address

def isDigit (l : Letter) : Bool := 48 ≤ l.code && l.code ≤ 57

def isHexDigit (l : Letter) : Bool :=
  isDigit l || (97 ≤ l.code && l.code ≤ 102) || (65 ≤ l.code && l.code ≤ 70)

def isOctet (t : Text) : Bool :=
  !t.isEmpty && t.all isDigit && decide (t.length ≤ 3) &&
    (t == "0" || t.head? != some (.char '0')) &&
    decide (t.foldl (fun n l => 10 * n + (l.code - 48)) 0 ≤ 255)

def isVersion4 (t : Text) : Bool :=
  let octets := Splitting.pieces (.char '.') t
  octets.length == 4 && octets.all isOctet

def isGroup (t : Text) : Bool :=
  !t.isEmpty && decide (t.length ≤ 4) && t.all isHexDigit

def expanded (parts : List Text) : Option (List Text) :=
  match parts.getLast? with
  | none => some parts
  | some last =>
    if last.contains (.char '.') then
      if isVersion4 last then some (parts.dropLast ++ [[.char '0'], [.char '0']]) else none
    else some parts

/-- The groups before and after the run that is left out. At either end of the address the run
leaves one more empty part, which is no group. -/
def sidesOk (before after : List Text) : Bool :=
  let high := match before with
    | [] :: rest => if rest.isEmpty then some [] else none
    | _ => some before
  let low := match after.reverse with
    | [] :: rest => if rest.isEmpty then some [] else none
    | _ => some after
  match high, low with
  | some high, some low =>
    decide (high.length + low.length ≤ 7) && high.all isGroup && low.all isGroup
  | _, _ => false

def groupsOk (parts : List Text) : Bool :=
  if parts.length < 3 || 9 < parts.length then false
  else
    let inner := (parts.drop 1).dropLast
    match inner.countP List.isEmpty with
    | 0 => parts.length == 8 && parts.all isGroup
    | 1 =>
      let skip := inner.findIdx List.isEmpty + 1
      sidesOk (parts.take skip) (parts.drop (skip + 1))
    | _ => false

def isVersion6 (t : Text) : Bool :=
  let address := t.takeWhile (· ≠ .char '%')
  let zone := t.dropWhile (· ≠ .char '%')
  let zoneOk := match zone with
    | [] => true
    | _ :: name => !name.isEmpty && !name.contains (.char '%')
  let parts := Splitting.pieces (.char ':') address
  !t.contains (.char '/') && zoneOk && decide (3 ≤ parts.length) &&
    (match expanded parts with
     | some groups => groupsOk groups
     | none => false)

end AssertionGrant.Address
