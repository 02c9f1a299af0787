import AssertionGrant.Failure
import AssertionGrant.Form.Multipart
import AssertionGrant.Json.Writer

/-!
Requests and responses as far as the endpoint looks at them.
-/

namespace AssertionGrant

structure HttpRequest where
  method : String := "POST"
  path : String
  contentType : Option String := none
  body : Option String := none
  authorization : Option String := none
  deriving Repr

structure HttpResponse where
  status : Nat
  /-- The body, where it is JSON. -/
  json : Option String := none
  cacheControl : Option String := none
  pragma : Option String := none
  deriving Repr, DecidableEq

namespace HttpRequest

def mediaType (r : HttpRequest) : String × Parameters.Table :=
  let (name, parameters) := Parameters.parse (r.contentType.getD "")
  (Chars.asciiLower name, parameters)

def formLimit : Nat := 500000

def formOfParts? (boundary body : String) : Option (List (String × String)) :=
  if !boundary.toList.all (·.toNat < 128) then some []
  else match Multipart.fields (Utf.encode boundary) (Utf.encode body) with
    | .ok fields => some fields
    | .error .malformed => some []
    | .error .tooLarge => none

/-- The fields of the form in the body; none when the body is too long. A body that is no form has
no fields. -/
def form? (r : HttpRequest) : Option (List (String × String)) :=
  let (name, parameters) := r.mediaType
  let body := r.body.getD ""
  if name = "multipart/form-data" then
    formOfParts? ((parameters.get? "boundary").getD "") body
  else if name ≠ "application/x-www-form-urlencoded" then some []
  else if formLimit < body.utf8ByteSize then none
  else some (Form.parse body)

end HttpRequest

namespace HttpResponse

def jsonText (v : Json) : String := v.text Json.canonical ++ "\n"

def uncached (status : Nat) (fields : Fields) : HttpResponse :=
  ⟨status, some (jsonText (.obj fields)), some "no-store", some "no-cache"⟩

def plain (status : Nat) : HttpResponse := { status }

end HttpResponse

end AssertionGrant
