import AssertionGrant.Form
import AssertionGrant.Request

/-!
A token request from the fields of a form. Parameters that must not repeat are refused when they do,
and a request without a grant type is refused.
-/

namespace AssertionGrant.AccessRequest

/-- The parameters that may come once, in the order in which they are looked at. -/
def singleValued : List String := ["grant_type", "assertion", "scope"]

def repeated (name : String) : Refusal :=
  .hinted .invalidRequest ("The \"" ++ name ++ "\" parameter must not be included more than once.")

def grantTypeMissing : Refusal :=
  .hinted .invalidRequest "The \"grant_type\" parameter is missing."

def firstOf (form : List (String × String)) (name : String) : String :=
  (Form.valuesOf form name).headD ""

def audienceOf (form : List (String × String)) : List Text :=
  Text.distinct ((Form.valuesOf form "audience").flatMap fun value : String => Scope.parse value)

def ofForm (form : List (String × String)) (client : Option Client) (session : Option Session)
    (id : Text) : Except Refusal AccessRequest :=
  match singleValued.find? fun name => 1 < (Form.valuesOf form name).length with
  | some name => .error (repeated name)
  | none =>
    let grantTypes := Text.words (firstOf form "grant_type")
    if grantTypes.isEmpty then .error grantTypeMissing
    else .ok
      { grantTypes
        form := Form.firstValues form
        scopes := Scope.parse (firstOf form "scope")
        audience := audienceOf form
        client
        session
        id }

end AssertionGrant.AccessRequest
