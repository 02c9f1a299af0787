import AssertionGrant.Json.Reader

/-!
Whether a name of a field occurs anywhere in a JSON text, even in one that cannot be read to its
end.
-/

namespace AssertionGrant.Json

mutual

def mentions (name : Text) : Json → Bool
  | .arr items => itemsMention name items
  | .obj fields => fieldsMention name fields
  | _ => false

def itemsMention (name : Text) : List Json → Bool
  | [] => false
  | v :: rest => mentions name v || itemsMention name rest

def fieldsMention (name : Text) : List (Text × Json) → Bool
  | [] => false
  | (n, v) :: rest => n == name || mentions name v || fieldsMention name rest

end

def spellsField (name : Text) : Nat → Text → Bool
  | 0, _ | _, [] => false
  | fuel + 1, l :: rest =>
    if l ≠ '"' then spellsField name fuel rest
    else match stringBody rest.length rest.length rest with
      | .ok (body, after) =>
        (body == name && (skipSpaces after).head? == some (.char ':')) || spellsField name fuel after
      | .error _ => spellsField name fuel rest

/-- Whether bytes look like JSON with a field of a name: they are JSON with such a field, or begin
like a container and spell the name where a field would have it. -/
def looksToHave [Nesting] (name : Text) (bytes : Bytes) : Bool :=
  match readBytes bytes with
  | .ok v => v.mentions name
  | .error _ =>
    match Utf.decode bytes with
    | .error _ => false
    | .ok t =>
      match t.dropWhile Text.isBlank with
      | rest@(.char '\x7b' :: _) | rest@(.char '[' :: _) => spellsField name rest.length rest
      | _ => false

end AssertionGrant.Json
