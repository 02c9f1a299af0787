import AssertionGrant.Proofs.Rules
import AssertionGrant.Proofs.Words

/-! What registered scopes grant. On texts a strategy always has an answer, and it is yes exactly
when one of the registered scopes alone reaches the requested one. -/

namespace AssertionGrant.Scope

variable {strategy : Strategy} {registered : List Text} {scope requested : Text}

theorem Strategy.covers_cons (registered : Text) (more : List Text) :
    strategy.covers (registered :: more) scope =
      (strategy.covers [registered] scope || strategy.covers more scope) := by
  unfold covers
  cases strategy with
  | exact => simp only [List.contains_cons, List.contains_nil, Bool.or_false]
  | hierarchic => simp only [List.any_cons, List.any_nil, Bool.or_false]
  | wildcard => simp only [List.any_cons, List.any_nil, Bool.or_false]

theorem Strategy.coversByAny_texts (registered : List Text) :
    strategy.coversByAny scope (registered.map .str) = .ok (strategy.covers registered scope) := by
  induction registered with
  | nil => cases strategy <;> rfl
  | cons text registered ih =>
    rw [List.map_cons, coversByAny, ih, covers_cons]
    have hby : strategy.coversBy (.str text) scope = .ok (strategy.covers [text] scope) := by
      cases strategy <;> rfl
    rw [hby]
    cases strategy.covers [text] scope <;> rfl

theorem Strategy.coversIn_texts (registered : List Text) :
    strategy.coversIn (.arr (registered.map .str)) scope =
      .ok (strategy.covers registered scope) := by
  rw [← coversByAny_texts]
  cases strategy <;> rfl

theorem Strategy.rule_eq_ok {registered : Json} {covered : Bool} :
    strategy.rule registered scope = .ok covered ↔
      strategy.coversIn registered scope = .ok covered := mapError_eq_ok

theorem Strategy.rule_texts (registered : List Text) :
    strategy.rule (.arr (registered.map .str)) scope = .ok (strategy.covers registered scope) :=
  rule_eq_ok.mpr (coversIn_texts registered)

def Strategy.Grants (strategy : Strategy) (registered : List Text) (requested : Text) : Prop :=
  strategy.rule (.arr (registered.map .str)) requested = .ok true

theorem Strategy.grants_iff_covers :
    strategy.Grants registered requested ↔ strategy.covers registered requested = true := by
  unfold Grants
  rw [rule_texts, Except.ok.injEq]

theorem Strategy.not_grants_iff : ¬ strategy.Grants registered requested ↔
    strategy.rule (.arr (registered.map .str)) requested = .ok false := by
  rw [grants_iff_covers, rule_texts, Except.ok.injEq, Bool.not_eq_true]

theorem Strategy.grants_iff_exists : strategy.Grants registered requested ↔
    ∃ scope ∈ registered, strategy.Grants [scope] requested := by
  simp only [grants_iff_covers]
  induction registered with
  | nil => cases strategy <;> simp [covers]
  | cons scope registered ih => rw [covers_cons, Bool.or_eq_true, ih, List.exists_mem_cons_iff]

end AssertionGrant.Scope
