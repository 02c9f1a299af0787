import AssertionGrant.Data.Chars
import AssertionGrant.Text.Letter

/-!
The words of a text between its blanks, and trimming. A word is never empty and holds no blank.
-/

namespace AssertionGrant.Text

def isBlank : Letter → Bool
  | .char c => Chars.isBlank c
  | .half _ => false

def words (t : Text) : List Text := (Splitting.piecesBetween isBlank t).filter (!·.isEmpty)

def trim (t : Text) : Text := Splitting.trimBoth isBlank t

def distinct {α : Type} [DecidableEq α] : List α → List α
  | [] => []
  | x :: rest => x :: (distinct rest).filter (· ≠ x)

def lowerLetter : Letter → Letter
  | .char c => .char (Chars.lower c)
  | .half n => .half n

def asciiLower (t : Text) : Text := t.map lowerLetter

end AssertionGrant.Text
