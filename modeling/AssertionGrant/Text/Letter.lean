/-!
Texts as lists of letters. A letter is a character, or half of a surrogate pair that stands alone:
JSON can spell one, but no encoding writes it.
-/

namespace AssertionGrant

inductive Letter where
  | char (c : Char)
  | half (n : Fin 2048)
  deriving DecidableEq, Repr

abbrev Text := List Letter

instance : Coe Char Letter := ⟨.char⟩

namespace Letter

def code : Letter → Nat
  | .char c => c.toNat
  | .half n => 0xD800 + n

def ofCode (n : Nat) : Letter :=
  if n.isValidChar then .char (Char.ofNat n) else .half (Fin.ofNat 2048 (n - 0xD800))

def char? : Letter → Option Char
  | .char c => some c
  | .half _ => none

end Letter

namespace Text

def ofString (s : String) : Text := s.toList.map .char

instance : Coe String Text := ⟨ofString⟩

def toString? (t : Text) : Option String := (t.mapM Letter.char?).map String.ofList

def joined (hi lo : Nat) : Nat := 0x10000 + hi * 1024 + (lo - 1024)

/-- The text with every two halves that make a pair joined. -/
def merged : Text → Text
  | .half hi :: .half lo :: rest =>
    if hi.val < 1024 ∧ 1024 ≤ lo.val then .ofCode (joined hi lo) :: merged rest
    else .half hi :: merged (.half lo :: rest)
  | l :: rest => l :: merged rest
  | [] => []

/-- Whether a text comes before another, or is it, by code points. -/
def isUpTo : Text → Text → Bool
  | [], _ => true
  | _ :: _, [] => false
  | l :: s, m :: t => decide (l.code < m.code) || decide (l.code = m.code) && isUpTo s t

end Text
end AssertionGrant
