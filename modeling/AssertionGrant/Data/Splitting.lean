/-!
Lists cut at the first place where a mark stands, at the places that a test finds, and at the ends
of lines.
-/

namespace AssertionGrant.Splitting

/-- The pieces between the members that separate; there is always at least one. -/
def piecesBetween {α : Type} (separates : α → Bool) : List α → List (List α)
  | [] => [[]]
  | x :: rest =>
    if separates x then [] :: piecesBetween separates rest
    else match piecesBetween separates rest with
      | [] => [[x]]
      | piece :: more => (x :: piece) :: more

def trimEnd {α : Type} (test : α → Bool) (xs : List α) : List α :=
  (xs.reverse.dropWhile test).reverse

def trimBoth {α : Type} (test : α → Bool) (xs : List α) : List α := trimEnd test (xs.dropWhile test)

variable {α : Type} [BEq α]

def cut (mark : List α) : List α → Option (List α × List α)
  | [] => if mark.isEmpty then some ([], []) else none
  | x :: rest =>
    if mark.isPrefixOf (x :: rest) then some ([], (x :: rest).drop mark.length)
    else (cut mark rest).map fun (before, after) => (x :: before, after)

def contains (mark xs : List α) : Bool := (cut mark xs).isSome

def after? (mark xs : List α) : Option (List α) :=
  if mark.isPrefixOf xs then some (xs.drop mark.length) else none

def pieces (separator : α) : List α → List (List α) := piecesBetween (· == separator)

end AssertionGrant.Splitting
