import AssertionGrant.Json.Value
import AssertionGrant.Number.Shortest
import AssertionGrant.Text.Quoted

/-!
Values as messages show them: texts in quotes, lists in brackets, objects in braces. A text alone
may also stand for itself.
-/

namespace AssertionGrant.Json

mutual

def quoted : Json → String
  | .null => "None"
  | .bool b => if b then "True" else "False"
  | .num n => n.text
  | .str s => Text.quoted s
  | .arr items => "[" ++ ", ".intercalate (itemsQuoted items) ++ "]"
  | .obj fields => "\x7b" ++ ", ".intercalate (fieldsQuoted fields) ++ "\x7d"

def itemsQuoted : List Json → List String
  | [] => []
  | v :: rest => quoted v :: itemsQuoted rest

def fieldsQuoted : List (Text × Json) → List String
  | [] => []
  | (name, v) :: rest => (Text.quoted name ++ ": " ++ quoted v) :: fieldsQuoted rest

end

def shown : Json → Text
  | .str s => s
  | v => v.quoted

end AssertionGrant.Json
