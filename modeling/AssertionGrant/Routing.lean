import AssertionGrant.Http
import AssertionGrant.Text.Quoted

/-!
Which view answers a request, by its path and its method. Paths are compared part by part, as the
slashes cut them. A path that would be answered if it had a slash at its end, or if its double
slashes were single ones, is redirected. Files have an address of their own, below which there are
none.
-/

namespace AssertionGrant

structure Route (α : Type) where
  parts : List (List Char)
  methods : List String
  view : α

namespace Routing

inductive Outcome (α : Type) where
  | answered (view : α)
  | options
  | redirected
  | methodNotAllowed
  | notFound
  deriving DecidableEq, Repr

def partsOf (path : List Char) : List (List Char) := Splitting.pieces '/' path

def merged : List Char → List Char
  | '/' :: '/' :: rest => '/' :: merged rest
  | c :: rest => c :: merged rest
  | [] => []

def route? {α : Type} (rule : String) (methods : List String) (view : α) : Option (Route α) :=
  if rule.startsWith "/" then some ⟨partsOf (merged rule.toList), "OPTIONS" :: methods, view⟩
  else none

def ruleFault (rule : String) : Fault :=
  ⟨.value, "URL rule " ++ Text.quoted rule ++ " must start with a slash."⟩

/-- Whether a path lies below the address of the files. -/
def isFile (parts : List (List Char)) : Bool :=
  match parts with
  | [] :: top :: (_ :: first) :: more =>
    top == "static".toList && !(first :: more).any (·.contains '\n')
  | _ => false

/-- Where a path leads; `known` tells whether any address has it, if only for other methods. -/
inductive Found (α : Type) where
  | view (v : α)
  | file
  | slashMissing
  | nothing (known : Bool)

def find {α : Type} (routes : List (Route α)) (method : String) (path : List Char) : Found α :=
  let parts := partsOf path
  let here := routes.filter (·.parts == parts)
  let withSlash := routes.filter (·.parts == parts ++ [[]])
  match here.find? (·.methods.contains method) with
  | some r => .view r.view
  | none =>
    if withSlash.any (·.methods.contains method) then .slashMissing
    else if !isFile parts then .nothing (!here.isEmpty)
    else if ["GET", "HEAD", "OPTIONS"].contains method then .file
    else .nothing true

def rooted (path : String) : List Char :=
  if path.isEmpty then [] else '/' :: path.toList.dropWhile (· == '/')

def dispatch {α : Type} (routes : List (Route α)) (method : String) (path : String) : Outcome α :=
  let path := rooted path
  let unanswered (known : Bool) : Outcome α := if known then .methodNotAllowed else .notFound
  match find routes method path with
  | .view v => if method = "OPTIONS" then .options else .answered v
  | .file => if method = "OPTIONS" then .options else .notFound
  | .slashMissing => .redirected
  | .nothing known =>
    match find routes method (merged path) with
    | .nothing again => unanswered (known || again)
    | _ => .redirected

end Routing
end AssertionGrant
