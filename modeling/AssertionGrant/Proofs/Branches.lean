import AssertionGrant.Proofs.Coverage

/-! Scopes as branches of a tree. The segments of a scope begin those of a longer one exactly when
the longer one continues it after a dot, so a scope that is longer than the requested one is rightly
passed over. -/

namespace AssertionGrant.Scope

variable {scope requested rest : Text}

theorem segments_eq_splitOn (scope : Text) : segments scope = scope.splitOn (.char '.') :=
  Splitting.piecesBetween_eq _ _

theorem segments_ne_nil (scope : Text) : segments scope ≠ [] := by
  rw [segments_eq_splitOn]
  exact List.splitOn_ne_nil _ _

theorem intercalate_segments (scope : Text) :
    List.intercalate (Text.ofString ".") (segments scope) = scope := by
  rw [segments_eq_splitOn]
  exact List.intercalate_splitOn _

theorem segments_injective : Function.Injective segments :=
  Function.LeftInverse.injective intercalate_segments

theorem segments_append (scope rest : Text) :
    segments (scope ++ "." ++ rest) = segments scope ++ segments rest := by
  rw [List.append_assoc]
  simp only [segments_eq_splitOn]
  exact List.splitOn_append_cons_self scope rest

def begins (scope requested : Text) : Bool :=
  decide ((segments scope).length < (segments requested).length) &&
    (segments requested).take (segments scope).length == segments scope

theorem begins_iff : begins scope requested = true ↔ ∃ rest, requested = scope ++ "." ++ rest := by
  unfold begins
  rw [Bool.and_eq_true, decide_eq_true_eq, beq_iff_eq]
  constructor
  · rintro ⟨hlt, htake⟩
    obtain ⟨more, hsplit⟩ := List.prefix_iff_eq_take.mpr htake.symm
    have hmore : more ≠ [] := by
      rintro rfl
      rw [← hsplit, List.append_nil] at hlt
      exact absurd hlt (Nat.lt_irrefl _)
    have hdotless : ∀ segment ∈ more, .char '.' ∉ segment := fun segment hsegment hdot => by
      have hpiece := Splitting.of_mem_piece (hsplit ▸ List.mem_append_right _ hsegment) _ hdot
      simp at hpiece
    have hback := Splitting.pieces_intercalate hmore hdotless
    refine ⟨List.intercalate (Text.ofString ".") more, segments_injective ?_⟩
    rw [segments_append, ← hsplit]
    exact congrArg (segments scope ++ ·) hback.symm
  · rintro ⟨rest, rfl⟩
    have hpos := List.length_pos_iff.mpr (segments_ne_nil rest)
    rw [segments_append, List.length_append]
    exact ⟨by omega, List.take_left' rfl⟩

theorem length_le_of_begins (h : begins scope requested = true) :
    scope.length ≤ requested.length := by
  obtain ⟨rest, rfl⟩ := begins_iff.mp h
  simp only [List.length_append]
  omega

theorem coversBelow_eq (scope requested : Text) :
    coversBelow scope requested = (scope == requested || begins scope requested) := by
  change (scope == requested || (decide _ && begins scope requested)) = _
  cases hb : begins scope requested with
  | false => rw [Bool.and_false]
  | true => rw [decide_eq_true (length_le_of_begins hb), Bool.true_and]

/-- A scope and the scopes that continue it after a dot. -/
def Below (scope requested : Text) : Prop :=
  requested = scope ∨ ∃ rest, requested = scope ++ "." ++ rest

theorem coversBelow_iff : coversBelow scope requested = true ↔ Below scope requested := by
  rw [coversBelow_eq, Bool.or_eq_true, beq_iff_eq, begins_iff, eq_comm, Below]

theorem Below.trans {middle : Text} (h : Below scope middle) (h' : Below middle requested) :
    Below scope requested := by
  rcases h with rfl | ⟨rest, rfl⟩
  · exact h'
  · rcases h' with rfl | ⟨more, rfl⟩
    · exact .inr ⟨rest, rfl⟩
    · exact .inr ⟨rest ++ "." ++ more, by simp only [List.append_assoc]⟩

theorem Below.length_le (h : Below scope requested) : scope.length ≤ requested.length := by
  rcases h with rfl | h
  · exact Nat.le_refl _
  · exact length_le_of_begins (begins_iff.mpr h)

theorem Below.antisymm (h : Below scope requested) (h' : Below requested scope) :
    scope = requested := by
  rcases h with rfl | ⟨rest, rfl⟩
  · rfl
  · have hle := h'.length_le
    have hdot : (Text.ofString ".").length = 1 := rfl
    simp only [List.length_append, hdot] at hle
    omega

theorem hierarchic_grants_one : Strategy.hierarchic.Grants [scope] requested ↔
    Below scope requested := by
  rw [Strategy.grants_iff_covers, Strategy.covers, List.any_cons, List.any_nil, Bool.or_false,
    coversBelow_iff]

/-- The hierarchic strategy grants a scope and what continues it after a dot. Its answer is the one
that it would give without passing over longer scopes, and no two scopes grant each other. -/
theorem hierarchic_grants_prefixed (registered : List Text) (requested : Text) :
    (∃ answer, Strategy.hierarchic.rule (.arr (registered.map .str)) requested = .ok answer ∧
      (answer = true ↔
        ∃ scope ∈ registered, requested = scope ∨ ∃ rest, requested = scope ++ "." ++ rest) ∧
      answer = registered.any fun scope => scope == requested || begins scope requested) ∧
    ¬ ∃ scope other, scope ≠ other ∧ Strategy.hierarchic.Grants [scope] other ∧
      Strategy.hierarchic.Grants [other] scope := by
  refine ⟨⟨_, Strategy.rule_texts registered, ?_, ?_⟩, ?_⟩
  · rw [← Strategy.grants_iff_covers, Strategy.grants_iff_exists]
    simp only [hierarchic_grants_one, Below]
  · simp only [Strategy.covers, coversBelow_eq]
  · rintro ⟨scope, other, hne, h, h'⟩
    exact hne ((hierarchic_grants_one.mp h).antisymm (hierarchic_grants_one.mp h'))

end AssertionGrant.Scope
