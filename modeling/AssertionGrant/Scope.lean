import AssertionGrant.Data.Splitting
import AssertionGrant.Failure
import AssertionGrant.Text.Blank

/-!
Scopes: how a list of them is read and joined, the three strategies that decide whether a requested
scope is covered by the registered ones, and the check of a whole request, by one of them or by any
other rule. Nothing is covered by an empty list of registered scopes. A storage may hand over
anything as registered scopes; what is not a list of texts is a fault as soon as it is needed.
-/

namespace AssertionGrant.Scope

def ofTexts (texts : List Text) : List Text := Text.distinct (texts.filter (!·.isEmpty))

def parse (raw : Text) : List Text := ofTexts (Text.words raw)

def ofJson : Json → List Text
  | .str s => parse s
  | .arr items => ofTexts (items.filterMap Json.str?)
  | _ => []

def join (scopes : List Text) : Text := List.intercalate " " scopes

def segments (scope : Text) : List Text := Splitting.pieces (.char '.') scope

inductive Strategy where
  | exact
  | hierarchic
  | wildcard
  deriving DecidableEq, Repr

def coversBelow (registered requested : Text) : Bool :=
  registered == requested ||
    (decide (registered.length ≤ requested.length) &&
      (let given := segments registered
       let want := segments requested
       decide (given.length < want.length) && want.take given.length == given))

def segmentCovers (registered requested : Text) : Bool :=
  (registered == "*" && !requested.isEmpty) || registered == requested

/-- Segment by segment; a last star also covers all further segments. -/
def segmentsCover : List Text → List Text → Bool
  | [], [] => true
  | [], _ :: _ => false
  | _ :: _, [] => false
  | [p], q :: more => (more.isEmpty || p == "*") && segmentCovers p q
  | p :: ps, q :: qs => segmentCovers p q && segmentsCover ps qs

def Strategy.covers : Strategy → List Text → Text → Bool
  | .exact, registered, requested => registered.contains requested
  | .hierarchic, registered, requested => registered.any (coversBelow · requested)
  | .wildcard, registered, requested =>
    registered.any fun scope => segmentsCover (segments scope) (segments requested)

def Strategy.coversBy (strategy : Strategy) (registered : Json) (requested : Text) :
    Except Fault Bool :=
  match strategy, registered with
  | strategy, .str scope => .ok (strategy.covers [scope] requested)
  | .exact, _ => .ok false
  | .hierarchic, .arr items => ofLength items.length
  | .hierarchic, .obj fields => ofLength fields.length
  | .hierarchic, _ => .error ⟨.wrongType, "a value without a length is no scope"⟩
  | .wildcard, _ => .error notText
where
  notText : Fault := ⟨.wrongObject, "a value that is no text has no segments"⟩
  ofLength (n : Nat) : Except Fault Bool :=
    if requested.length < n then .ok false else .error notText

/-- The first registered value that covers a requested scope decides, or the first one that is no
scope at all. -/
def Strategy.coversByAny (strategy : Strategy) (requested : Text) :
    List Json → Except Fault Bool
  | [] => .ok false
  | v :: rest => do
    if ← strategy.coversBy v requested then pure true else strategy.coversByAny requested rest

def Strategy.coversIn (strategy : Strategy) (registered : Json) (requested : Text) :
    Except Fault Bool :=
  match strategy, registered, registered.members with
  | .exact, .str text, _ => .ok (Splitting.contains requested text)
  | strategy, _, some members => strategy.coversByAny requested members
  | _, _, none => .error ⟨.wrongType, "a value without members holds no scopes"⟩

abbrev Rule := Json → Text → Except Failure Bool

def Strategy.rule (strategy : Strategy) : Rule := fun registered requested =>
  (strategy.coversIn registered requested).mapError .fault

instance : Coe Strategy Rule := ⟨Strategy.rule⟩

def notAllowed (issuer subject scope : Text) : Refusal :=
  .hinted .invalidScope
    ("The public key registered for issuer \"" ++ issuer ++ "\" and subject \"" ++ subject ++
      "\" is not allowed to request scope \"" ++ scope ++ "\".")

def authorize (rule : Rule) (registered : Json) (requested : List Text)
    (issuer subject : Text) : Except Failure Unit :=
  requested.forM fun scope => do
    if !(← rule registered scope) then
      throw (.refusal (notAllowed issuer subject scope))

end AssertionGrant.Scope
