import AssertionGrant.Http.Parameters

/-!
Forms whose fields come one after the other as parts of their own. A part starts and ends with a
line that holds the boundary after two dashes, and the last one ends with two more dashes. Headers
come first in a part, and an empty line ends them. Lines may end in any of the usual ways.
-/

namespace AssertionGrant.Multipart

inductive Fault where
  | malformed
  | tooLarge
  deriving DecidableEq, Repr

/-- The most bytes that a field, or what is not yet taken apart, may have. -/
def sizeLimit : Nat := 500000

def partLimit : Nat := 1000

def afterLineEnd? : Bytes → Option Bytes
  | 13 :: 10 :: rest | 13 :: rest | 10 :: rest => some rest
  | _ => none

def isGap (b : UInt8) : Bool := b = 32 || b = 9 || b = 11 || b = 12

structure Tail where
  isLast : Bool
  rest : Bytes

def afterBoundary? (boundary bytes : Bytes) : Option Tail := do
  let rest ← Splitting.after? (45 :: 45 :: boundary) bytes
  match rest with
  | 45 :: 45 :: rest =>
    let rest := rest.dropWhile isGap
    pure ⟨true, (afterLineEnd? rest).getD rest⟩
  | rest => do
    let rest ← afterLineEnd? (rest.dropWhile isGap)
    pure ⟨false, rest⟩

/-- A boundary at the start, with the line end before it, which the first boundary may lack. -/
def boundaryAt? (isFirst : Bool) (boundary bytes : Bytes) : Option Tail :=
  match (afterLineEnd? bytes).bind (afterBoundary? boundary) with
  | some tail => some tail
  | none => if isFirst then afterBoundary? boundary bytes else none

def cutAtBoundary (isFirst : Bool) (boundary : Bytes) : Bytes → Option (Bytes × Tail)
  | [] => none
  | b :: rest =>
    match boundaryAt? isFirst boundary (b :: rest) with
    | some tail => some ([], tail)
    | none => (cutAtBoundary isFirst boundary rest).map fun (before, tail) => (b :: before, tail)

def cutAtEmptyLine : Bytes → Option (Bytes × Bytes)
  | 13 :: 10 :: 13 :: 10 :: rest => some ([], 13 :: 10 :: rest)
  | 13 :: 13 :: rest => some ([], 13 :: rest)
  | 10 :: 10 :: rest => some ([], 10 :: rest)
  | b :: rest => (cutAtEmptyLine rest).map fun (before, after) => (b :: before, after)
  | [] => none

def joined : Bytes → Bytes
  | 13 :: 10 :: b :: rest =>
    if b = 32 ∨ b = 9 then 32 :: joined rest else 13 :: 10 :: joined (b :: rest)
  | a :: b :: rest =>
    if (a = 13 ∨ a = 10) ∧ (b = 32 ∨ b = 9) then 32 :: joined rest else a :: joined (b :: rest)
  | bytes => bytes

def headersOf (bytes : Bytes) : Except Fault (List (String × String)) :=
  let lines := Splitting.pieces 10 ((joined bytes).map fun b => if b = 13 then 10 else b)
  (lines.filter (!·.all fun b => isGap b)).mapM fun line =>
    match Utf.decodeUtf8 line with
    | .error _ => .error .malformed
    | .ok cs =>
      let name := Chars.trim (String.ofList (cs.takeWhile (· ≠ ':')))
      let value := Chars.trim (String.ofList ((cs.dropWhile (· ≠ ':')).drop 1))
      .ok (Chars.asciiLower name, value)

def header? (headers : List (String × String)) (name : String) : Option String :=
  (headers.find? (·.1 = name)).map (·.2)

def textOf (headers : List (String × String)) (bytes : Bytes) : String :=
  let parameters := (Parameters.parse ((header? headers "content-type").getD "")).2
  let name := Chars.asciiLower ((parameters.get? "charset").getD "")
  let charset := (Parameters.Charset.ofName? name).getD .utf8
  String.ofList (charset.decode bytes)

def fieldName? (disposition : String) : Option String :=
  let parameters := (Parameters.parse disposition).2
  if (parameters.get? "filename").isSome then none else parameters.get? "name"

def isFile (disposition : String) : Bool :=
  ((Parameters.parse disposition).2.get? "filename").isSome

def fieldsFrom (boundary : Bytes) : Nat → Bytes → Except Fault (List (String × String))
  | 0, _ => .error .tooLarge
  | fuel + 1, bytes => do
    let some (head, rest) := cutAtEmptyLine bytes
      | throw (if sizeLimit < bytes.length then .tooLarge else .malformed)
    let headers ← headersOf head
    let some disposition := header? headers "content-disposition" | throw .malformed
    if fuel = 0 then throw .tooLarge
    let some (body, tail) := cutAtBoundary false boundary rest
      | throw (if sizeLimit < rest.length && !isFile disposition then .tooLarge else .malformed)
    let data := (afterLineEnd? body).getD body
    if !isFile disposition && sizeLimit < data.length then throw .tooLarge
    let field := (fieldName? disposition).map fun name => (name, textOf headers data)
    if tail.isLast then pure field.toList
    else do
      let more ← fieldsFrom boundary fuel tail.rest
      pure (field.toList ++ more)

def fields (boundary body : Bytes) : Except Fault (List (String × String)) := do
  if boundary.isEmpty then throw .malformed
  match cutAtBoundary true boundary body with
  | none => throw (if sizeLimit < body.length then .tooLarge else .malformed)
  | some (_, tail) => if tail.isLast then pure [] else fieldsFrom boundary (partLimit + 1) tail.rest

end AssertionGrant.Multipart
