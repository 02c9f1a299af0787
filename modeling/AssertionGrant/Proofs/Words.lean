import AssertionGrant.Proofs.Texts
import AssertionGrant.Request
import Mathlib.Data.List.Nodup

/-! Lists of words. A word is not empty and holds no blank, so a list of words that is written with
a blank between them is read back as it was. Values that are granted one after the other are the
distinct ones, in the order in which they first come. -/

namespace AssertionGrant

namespace Splitting

variable {α : Type} {separates : α → Bool}

theorem piecesBetween_eq (separates : α → Bool) (xs : List α) :
    piecesBetween separates xs = xs.splitOnP separates := by
  induction xs with
  | nil => rw [List.splitOnP_nil, piecesBetween]
  | cons x xs ih =>
    have hne := List.splitOnP_ne_nil separates xs
    rw [List.splitOnP_cons_eq_if_modifyHead, piecesBetween, ih]
    split
    · rfl
    · generalize xs.splitOnP separates = pieces at *
      cases pieces with
      | nil => exact absurd rfl hne
      | cons piece more => rfl

theorem of_mem_piece {xs piece : List α} (h : piece ∈ piecesBetween separates xs) :
    ∀ x ∈ piece, x ∈ xs ∧ separates x = false := by
  have hlater {x y : α} {xs : List α} (h : x ∈ xs ∧ separates x = false) :
      x ∈ y :: xs ∧ separates x = false := ⟨List.mem_cons_of_mem _ h.1, h.2⟩
  induction xs generalizing piece with
  | nil =>
    rw [piecesBetween, List.mem_singleton] at h
    rw [h]
    nofun
  | cons x xs ih =>
    rw [piecesBetween] at h
    split at h
    · rcases List.mem_cons.mp h with rfl | h
      · nofun
      · exact fun y hy => hlater (ih h y hy)
    · next hx =>
      have hx : x ∈ x :: xs ∧ separates x = false := ⟨List.mem_cons_self, by simpa using hx⟩
      split at h
      · rw [List.mem_singleton.mp h]
        exact List.forall_mem_singleton.mpr hx
      · next first more e =>
        rcases List.mem_cons.mp h with rfl | h
        · exact List.forall_mem_cons.mpr
            ⟨hx, fun y hy => hlater (ih (e ▸ List.mem_cons_self) y hy)⟩
        · exact fun y hy => hlater (ih (e ▸ List.mem_cons_of_mem _ h) y hy)

theorem pieces_intercalate [BEq α] [LawfulBEq α] {separator : α} {lists : List (List α)}
    (hne : lists ≠ []) (h : ∀ l ∈ lists, separator ∉ l) :
    pieces separator ([separator].intercalate lists) = lists := by
  unfold pieces
  rw [piecesBetween_eq]
  exact List.splitOn_intercalate separator h hne

end Splitting

namespace Text

theorem of_mem_words {t word : Text} (h : word ∈ words t) :
    word ≠ [] ∧ ∀ l ∈ word, isBlank l = false := by
  obtain ⟨hpiece, hne⟩ := List.mem_filter.mp h
  refine ⟨?_, fun l hl => (Splitting.of_mem_piece hpiece l hl).2⟩
  rintro rfl
  cases hne

theorem mem_of_mem_words {t word : Text} {l : Letter} (h : word ∈ words t) (hl : l ∈ word) :
    l ∈ t := (Splitting.of_mem_piece (List.mem_filter.mp h).1 l hl).1

variable {α : Type} [DecidableEq α] {l : List α}

theorem mem_distinct {x : α} : x ∈ distinct l ↔ x ∈ l := by
  induction l with
  | nil => exact Iff.rfl
  | cons y l ih =>
    rw [distinct, List.mem_cons, List.mem_filter, ih, List.mem_cons]
    by_cases hxy : x = y <;> simp [hxy]

theorem nodup_distinct (l : List α) : (distinct l).Nodup := by
  induction l with
  | nil => exact List.nodup_nil
  | cons y l ih =>
    rw [distinct, List.nodup_cons]
    refine ⟨?_, ih.filter _⟩
    intro hy
    have := (List.mem_filter.mp hy).2
    simp at this

theorem distinct_of_nodup (h : l.Nodup) : distinct l = l := by
  induction l with
  | nil => rfl
  | cons y l ih =>
    obtain ⟨hy, h⟩ := List.nodup_cons.mp h
    rw [distinct, ih h, List.filter_eq_self.mpr]
    intro x hx
    have hne : x ≠ y := fun e => hy (e ▸ hx)
    simpa using hne

end Text

namespace AccessRequest
open Text

theorem foldl_included (l acc : List Text) :
    l.foldl included acc = acc ++ (distinct l).filter fun x => !acc.contains x := by
  induction l generalizing acc with
  | nil => rw [List.foldl_nil, distinct, List.filter_nil, List.append_nil]
  | cons y l ih =>
    rw [List.foldl_cons, ih, distinct, List.filter_cons]
    unfold included
    split
    · next hy =>
      rw [hy, List.filter_filter]
      congr 1
      refine List.filter_congr fun x _ => ?_
      cases hx : acc.contains x with
      | true => rfl
      | false =>
        have hxy : x ≠ y := by
          rintro rfl
          rw [hx] at hy
          cases hy
        simp only [Bool.not_false, Bool.true_and, decide_eq_true hxy]
    · next hy =>
      have hy : acc.contains y = false := by simpa using hy
      rw [hy, List.append_assoc, List.filter_filter]
      congr 1
      simp only [Bool.not_false, if_true, List.singleton_append]
      congr 1
      refine List.filter_congr fun x _ => ?_
      rw [List.contains_append]
      by_cases hxy : x = y <;> simp [hxy, Bool.and_comm]

theorem foldl_included_nil (l : List Text) : l.foldl included [] = distinct l := by
  rw [foldl_included, List.nil_append]
  exact List.filter_eq_self.mpr fun _ _ => rfl

theorem foldl_grantScope (scopes : List Text) (r : AccessRequest) :
    scopes.foldl grantScope r =
      { r with grantedScopes := scopes.foldl included r.grantedScopes } := by
  induction scopes generalizing r with
  | nil => rfl
  | cons scope scopes ih => exact ih (r.grantScope scope)

theorem foldl_grantAudience (audience : List Text) (r : AccessRequest) :
    audience.foldl grantAudience r =
      { r with grantedAudience := audience.foldl included r.grantedAudience } := by
  induction audience generalizing r with
  | nil => rfl
  | cons a audience ih => exact ih (r.grantAudience a)

end AccessRequest

namespace Scope
open Text

theorem parse_eq (raw : Text) : parse raw = distinct (words raw) := by
  unfold parse ofTexts
  rw [List.filter_eq_self.mpr]
  intro word hword
  simpa using (of_mem_words hword).1

theorem of_mem_parse {raw scope : Text} (h : scope ∈ parse raw) :
    scope ≠ [] ∧ .char ' ' ∉ scope := by
  rw [parse_eq] at h
  obtain ⟨hne, hblank⟩ := of_mem_words (mem_distinct.mp h)
  refine ⟨hne, fun hspace => ?_⟩
  have hspace := hblank (.char ' ') hspace
  revert hspace
  decide

theorem pieces_join_parse {raw : Text} (h : parse raw ≠ []) :
    Splitting.pieces (.char ' ') (join (parse raw)) = parse raw :=
  Splitting.pieces_intercalate h fun _ hscope => (of_mem_parse hscope).2

theorem join_cons_cons (scope next : Text) (scopes : List Text) :
    join (scope :: next :: scopes) = scope ++ .char ' ' :: join (next :: scopes) := rfl

theorem isSome_toString?_join {scopes : List Text}
    (h : ∀ scope ∈ scopes, scope.toString?.isSome = true) :
    (join scopes).toString?.isSome = true := by
  rw [isSome_toString?_iff]
  induction scopes with
  | nil => nofun
  | cons scope scopes ih =>
    obtain ⟨hscope, hscopes⟩ := List.forall_mem_cons.mp h
    have hletters := isSome_toString?_iff.mp hscope
    cases scopes with
    | nil => simpa [join] using hletters
    | cons next scopes =>
      rw [join_cons_cons, List.forall_mem_append, List.forall_mem_cons]
      exact ⟨hletters, ⟨_, rfl⟩, ih hscopes⟩

end Scope
end AssertionGrant
