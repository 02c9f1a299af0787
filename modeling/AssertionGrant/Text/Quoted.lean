import AssertionGrant.Text.Letter
import AssertionGrant.Text.Printable

/-!
Quoted text, as messages show a value: in single quotes unless only double quotes avoid an escape,
with the backslash and the quote escaped and every unprintable letter written by its code point.
-/

namespace AssertionGrant.Text

def hexPadded (width n : Nat) : List Char :=
  let ds := Nat.toDigits 16 n
  List.replicate (width - ds.length) '0' ++ ds

def singleQuote : Char := Char.ofNat 39

def doubleQuote : Char := '"'

def escaped (n : Nat) : List Char :=
  if n < 0x100 then '\\' :: 'x' :: hexPadded 2 n
  else if n < 0x10000 then '\\' :: 'u' :: hexPadded 4 n
  else '\\' :: 'U' :: hexPadded 8 n

def quotedChar (quote c : Char) : List Char :=
  if c = quote ∨ c = '\\' then ['\\', c]
  else if c = '\n' then ['\\', 'n']
  else if c = '\r' then ['\\', 'r']
  else if c = '\t' then ['\\', 't']
  else if isPrintable c then [c]
  else escaped c.toNat

def quotedLetter (quote : Char) : Letter → List Char
  | .char c => quotedChar quote c
  | .half n => escaped (Letter.half n).code

def quoted (t : Text) : String :=
  let quote := if t.contains singleQuote && !t.contains doubleQuote then doubleQuote
    else singleQuote
  String.ofList (quote :: (t.flatMap (quotedLetter quote) ++ [quote]))

def quotedList (xs : List Text) : String :=
  "[" ++ ", ".intercalate (xs.map quoted) ++ "]"

end AssertionGrant.Text
