import AssertionGrant.Proofs.Patterns

/-! Granted scopes reach no further than the scopes that they were granted from. Of each strategy one
scope reaches another by a relation that is transitive, so a scope that was granted may be registered
in its turn, and only the set of registered scopes counts. -/

namespace AssertionGrant.Scope

variable {strategy : Strategy} {registered granted more : List Text} {scope : Text}

theorem exact_grants_one {requested : Text} :
    Strategy.exact.Grants [scope] requested ↔ requested = scope := by
  rw [Strategy.grants_iff_covers, Strategy.covers, List.contains_cons, List.contains_nil,
    Bool.or_false, beq_iff_eq]

namespace Strategy

theorem Grants.trans {middle requested : Text} (h : strategy.Grants [scope] middle)
    (h' : strategy.Grants [middle] requested) : strategy.Grants [scope] requested := by
  cases strategy with
  | exact =>
    rw [exact_grants_one] at *
    exact h'.trans h
  | hierarchic =>
    rw [hierarchic_grants_one] at *
    exact h.trans h'
  | wildcard =>
    rw [wildcard_grants_one] at *
    exact h.trans h'

theorem Grants.of_granted (hgranted : ∀ middle ∈ granted, strategy.Grants registered middle)
    (h : strategy.Grants granted scope) : strategy.Grants registered scope := by
  obtain ⟨middle, hmiddle, h⟩ := grants_iff_exists.mp h
  obtain ⟨top, htop, hgrants⟩ := grants_iff_exists.mp (hgranted middle hmiddle)
  exact grants_iff_exists.mpr ⟨top, htop, hgrants.trans h⟩

theorem Grants.mono (hmore : registered ⊆ more) (h : strategy.Grants registered scope) :
    strategy.Grants more scope := by
  obtain ⟨top, htop, h⟩ := grants_iff_exists.mp h
  exact grants_iff_exists.mpr ⟨top, hmore htop, h⟩

end Strategy

variable {rule : Rule} {texts : Json} {before after requested : List Text}
  {issuer subject : Text}

theorem authorize_cons_of_covered (h : rule texts scope = .ok true) :
    authorize rule texts (scope :: after) issuer subject =
      authorize rule texts after issuer subject := by
  unfold authorize
  rw [List.forM_eq_forM, List.forM_cons, h]
  rfl

theorem authorize_refuses (hbefore : ∀ earlier ∈ before, rule texts earlier = .ok true)
    (hscope : rule texts scope = .ok false) :
    authorize rule texts (before ++ scope :: after) issuer subject =
      .error (.refusal (notAllowed issuer subject scope)) := by
  induction before with
  | nil =>
    unfold authorize
    rw [List.nil_append, List.forM_eq_forM, List.forM_cons, hscope]
    rfl
  | cons earlier before ih =>
    obtain ⟨hearlier, hbefore⟩ := List.forall_mem_cons.mp hbefore
    rw [List.cons_append, authorize_cons_of_covered hearlier, ih hbefore]

theorem authorize_texts_cases (strategy : Strategy) (registered requested : List Text)
    (issuer subject : Text) :
    (∀ scope ∈ requested, strategy.Grants registered scope) ∧
        authorize strategy.rule (.arr (registered.map .str)) requested issuer subject = .ok () ∨
      ∃ before scope after, requested = before ++ scope :: after ∧
        (∀ earlier ∈ before, strategy.Grants registered earlier) ∧
        ¬ strategy.Grants registered scope ∧
        authorize strategy.rule (.arr (registered.map .str)) requested issuer subject =
          .error (.refusal (notAllowed issuer subject scope)) := by
  cases hfirst : requested.find? fun scope => !strategy.covers registered scope with
  | none =>
    have hall : ∀ scope ∈ requested, strategy.Grants registered scope := by
      simpa [Strategy.grants_iff_covers] using hfirst
    exact .inl ⟨hall, authorize_eq_ok.mpr hall⟩
  | some scope =>
    obtain ⟨hscope, before, after, rfl, hbefore⟩ := List.find?_eq_some_iff_append.mp hfirst
    have hnot : ¬ strategy.Grants registered scope := by
      simpa [Strategy.grants_iff_covers] using hscope
    have hearlier : ∀ earlier ∈ before, strategy.Grants registered earlier := by
      simpa [Strategy.grants_iff_covers] using hbefore
    exact .inr ⟨before, scope, after, rfl, hearlier, hnot,
      authorize_refuses hearlier (Strategy.not_grants_iff.mp hnot)⟩

/-- Granted scopes reach no further than the scopes that they were granted from, whichever strategy
decides. Only the set of registered scopes counts, and a larger one grants no less; a request passes
if some registered scope alone grants each of its scopes, and otherwise its first scope that none
grants is named. -/
theorem granted_scopes_confined (strategy : Strategy) (registered : List Text) :
    (∀ granted, (∀ middle ∈ granted, strategy.Grants registered middle) →
      ∀ scope, strategy.Grants granted scope → strategy.Grants registered scope) ∧
    (∀ other : List Text, (∀ scope, scope ∈ registered ↔ scope ∈ other) → ∀ scope,
      strategy.rule (.arr (registered.map .str)) scope =
        strategy.rule (.arr (other.map .str)) scope) ∧
    (∀ more, registered ⊆ more →
      ∀ scope, strategy.Grants registered scope → strategy.Grants more scope) ∧
    ∀ requested issuer subject,
      (authorize strategy.rule (.arr (registered.map .str)) requested issuer subject = .ok () ↔
        ∀ scope ∈ requested, ∃ one ∈ registered, strategy.Grants [one] scope) ∧
      ((∃ scope ∈ requested, ∀ one ∈ registered, ¬ strategy.Grants [one] scope) →
        ∃ before scope after, requested = before ++ scope :: after ∧
          (∀ earlier ∈ before, ∃ one ∈ registered, strategy.Grants [one] earlier) ∧
          (∀ one ∈ registered, ¬ strategy.Grants [one] scope) ∧
          authorize strategy.rule (.arr (registered.map .str)) requested issuer subject =
            .error (.refusal (notAllowed issuer subject scope))) := by
  have hone (scope : Text) : strategy.Grants registered scope ↔
      ∃ one ∈ registered, strategy.Grants [one] scope := Strategy.grants_iff_exists
  refine ⟨fun granted hgranted scope => Strategy.Grants.of_granted hgranted,
    fun other hsame scope => ?_, fun more hmore scope => Strategy.Grants.mono hmore,
    fun requested issuer subject => ⟨?_, ?_⟩⟩
  · have hiff : strategy.Grants registered scope ↔ strategy.Grants other scope :=
      ⟨.mono fun _ => (hsame _).mp, .mono fun _ => (hsame _).mpr⟩
    simp only [Strategy.grants_iff_covers] at hiff
    rw [Strategy.rule_texts, Strategy.rule_texts, Bool.eq_iff_iff.mpr hiff]
  · simp only [← hone]
    exact authorize_eq_ok
  · rintro ⟨scope, hscope, hnone⟩
    rcases authorize_texts_cases strategy registered requested issuer subject with
      ⟨hall, -⟩ | ⟨before, first, after, hsplit, hearlier, hnot, h⟩
    · obtain ⟨one, hmem, hgrants⟩ := (hone scope).mp (hall scope hscope)
      exact absurd hgrants (hnone one hmem)
    · refine ⟨before, first, after, hsplit, fun earlier he => (hone earlier).mp (hearlier earlier he),
        fun one hmem hgrants => hnot ((hone first).mpr ⟨one, hmem, hgrants⟩), h⟩

def photos : List Text := ["photos.*"]

def delegated : List Text := ["photos.*", "photos.*.own"]

def asked : List Text := ["photos.read", "mail", "notes"]

theorem photos_confined :
    (∀ middle ∈ delegated, Strategy.wildcard.Grants photos middle) ∧
      Strategy.wildcard.Grants delegated "photos.read.own" ∧
      Strategy.wildcard.Grants photos "photos.read.own" ∧
      Strategy.wildcard.Grants ("mail" :: photos) "photos.read.own" ∧
      ∃ before scope after, asked = before ++ scope :: after ∧
        authorize Strategy.wildcard.rule (.arr (photos.map .str)) asked "i" "s" =
          .error (.refusal (notAllowed "i" "s" scope)) := by
  have hgranted : ∀ middle ∈ delegated, Strategy.wildcard.Grants photos middle := by
    simp only [Strategy.grants_iff_covers]
    decide
  have hown : Strategy.wildcard.Grants delegated "photos.read.own" := by
    rw [Strategy.grants_iff_covers]
    decide
  have hmail : ∃ scope ∈ asked, ∀ one ∈ photos, ¬ Strategy.wildcard.Grants [one] scope := by
    refine ⟨"mail", by decide, ?_⟩
    simp only [Strategy.grants_iff_covers]
    decide
  obtain ⟨hconfined, -, hmono, hauthorize⟩ := granted_scopes_confined .wildcard photos
  have hreached := hconfined _ hgranted _ hown
  obtain ⟨before, scope, after, hsplit, -, -, h⟩ := (hauthorize _ "i" "s").2 hmail
  exact ⟨hgranted, hown, hreached, hmono _ (List.subset_cons_self _ _) _ hreached, before, scope,
    after, hsplit, h⟩

end AssertionGrant.Scope
