import AssertionGrant.Proofs.Texts
import AssertionGrant.Proofs.Words

/-! Texts as words with blanks around them. Whatever blanks it has, a text is a phrase of one list of
words, and joining texts with a space joins their words. So scopes that were read from a text and
joined again are read as they were. -/

namespace AssertionGrant

namespace Text

def IsWord (word : Text) : Prop := word ≠ [] ∧ ∀ l ∈ word, isBlank l = false

/-- A text that spells these words in this order, with blanks around each. A word ends at a blank or
where the text ends. -/
inductive Phrase : Text → List Text → Prop
  | blank {t : Text} (h : ∀ l ∈ t, isBlank l = true) : Phrase t []
  | word {gap rest first : Text} {more : List Text}
      (hgap : ∀ l ∈ gap, isBlank l = true) (hfirst : IsWord first)
      (hend : ∀ l, rest.head? = some l → isBlank l = true) (hrest : Phrase rest more) :
      Phrase (gap ++ (first ++ rest)) (first :: more)

theorem words_eq (t : Text) : words t = (t.splitOnP isBlank).filter (!·.isEmpty) := by
  unfold words
  rw [Splitting.piecesBetween_eq]

section Letters

variable {t gap rest first : Text} {found : List Text}

theorem words_append_blank {l : Letter} (hl : isBlank l = true) (t rest : Text) :
    words (t ++ l :: rest) = words t ++ words rest := by
  simp only [words_eq]
  rw [List.splitOnP_append_cons _ _ hl, List.filter_append]

theorem words_gap_append (hgap : ∀ l ∈ gap, isBlank l = true) (t : Text) :
    words (gap ++ t) = words t := by
  induction gap with
  | nil => rfl
  | cons l gap ih =>
    obtain ⟨hl, hgap⟩ := List.forall_mem_cons.mp hgap
    rw [List.cons_append]
    exact (words_append_blank hl [] (gap ++ t)).trans (ih hgap)

theorem words_word (hfirst : IsWord first) : words first = [first] := by
  have hne : first.isEmpty = false := by simpa using hfirst.1
  rw [words_eq, List.splitOnP_eq_singleton hfirst.2, List.filter_singleton, hne]
  rfl

theorem words_word_append (hfirst : IsWord first)
    (hend : ∀ l, rest.head? = some l → isBlank l = true) :
    words (first ++ rest) = first :: words rest := by
  cases rest with
  | nil =>
    rw [List.append_nil, words_word hfirst]
    rfl
  | cons l rest =>
    have hl := hend l rfl
    have hrest : words (l :: rest) = words rest := words_append_blank hl [] rest
    rw [words_append_blank hl, words_word hfirst, hrest]
    rfl

theorem Phrase.words_eq (h : Phrase t found) : words t = found := by
  induction h with
  | @blank t h =>
    have ht := words_gap_append h []
    rwa [List.append_nil] at ht
  | word hgap hfirst hend _ ih =>
    rw [words_gap_append hgap, words_word_append hfirst hend, ih]

theorem Phrase.gap_append (hgap : ∀ l ∈ gap, isBlank l = true) (h : Phrase t found) :
    Phrase (gap ++ t) found := by
  cases h with
  | blank h => exact .blank fun l hl => (List.mem_append.mp hl).elim (hgap l) (h l)
  | word hgap' hfirst hend hrest =>
    rw [← List.append_assoc]
    refine .word (fun l hl => ?_) hfirst hend hrest
    exact (List.mem_append.mp hl).elim (hgap l) (hgap' l)

theorem Phrase.exists_letter_cons {l : Letter} (hl : isBlank l = false) (h : Phrase t found) :
    ∃ found', Phrase (l :: t) found' := by
  have hletter : IsWord [l] := ⟨List.cons_ne_nil _ _, List.forall_mem_singleton.mpr hl⟩
  have halone (hend : ∀ l', t.head? = some l' → isBlank l' = true) :
      Phrase (l :: t) ([l] :: found) := .word (List.forall_mem_nil _) hletter hend h
  cases h with
  | blank h => exact ⟨_, halone fun l' hl' => h l' (List.mem_of_head? hl')⟩
  | @word gap rest first more hgap hfirst hend hrest =>
    cases gap with
    | nil =>
      have hlonger : IsWord (l :: first) :=
        ⟨List.cons_ne_nil _ _, List.forall_mem_cons.mpr ⟨hl, hfirst.2⟩⟩
      exact ⟨_, .word (List.forall_mem_nil _) hlonger hend hrest⟩
    | cons b gap =>
      refine ⟨_, halone fun l' hl' => ?_⟩
      obtain rfl := Option.some.inj hl'
      exact hgap b List.mem_cons_self

theorem exists_phrase (t : Text) : ∃ found, Phrase t found := by
  induction t with
  | nil => exact ⟨[], .blank (List.forall_mem_nil _)⟩
  | cons l t ih =>
    obtain ⟨found, h⟩ := ih
    cases hl : isBlank l with
    | true => exact ⟨found, h.gap_append (List.forall_mem_singleton.mpr hl)⟩
    | false => exact h.exists_letter_cons hl

theorem phrase_iff : Phrase t found ↔ found = words t := by
  constructor
  · intro h
    exact h.words_eq.symm
  · rintro rfl
    obtain ⟨found, h⟩ := exists_phrase t
    rwa [← h.words_eq] at h

end Letters

section Lists

variable {l : List Text}

theorem words_intercalate (texts : List Text) :
    words (Scope.join texts) = texts.flatMap words := by
  induction texts with
  | nil => rfl
  | cons text texts ih =>
    cases texts with
    | nil => simp [Scope.join]
    | cons next texts =>
      rw [Scope.join_cons_cons, words_append_blank (by decide), ih]
      rfl

theorem join_ofString (texts : List String) :
    Scope.join (texts.map ofString) = ofString (" ".intercalate texts) := by
  induction texts with
  | nil => rfl
  | cons text texts ih =>
    cases texts with
    | nil => simp [Scope.join]
    | cons next texts =>
      rw [String.intercalate_cons_of_ne_nil (List.cons_ne_nil _ _), ofString_append, ofString_append,
        ← ih, List.append_assoc]
      rfl

theorem words_eq_nil_iff {t : Text} : words t = [] ↔ ∀ l ∈ t, isBlank l = true := by
  rw [eq_comm, ← phrase_iff]
  constructor
  · intro h
    cases h with
    | blank h => exact h
  · exact .blank

theorem isWord_of_mem_words {t word : Text} (h : word ∈ words t) : IsWord word := of_mem_words h

theorem words_join (h : ∀ word ∈ l, IsWord word) : words (Scope.join l) = l := by
  rw [words_intercalate]
  induction l with
  | nil => rfl
  | cons word l ih =>
    obtain ⟨hword, h⟩ := List.forall_mem_cons.mp h
    rw [List.flatMap_cons, ih h, words_word hword]
    rfl

theorem distinct_append (l l' : List Text) :
    distinct (l ++ l') = distinct l ++ (distinct l').filter fun x => !(distinct l).contains x := by
  rw [← AccessRequest.foldl_included_nil, List.foldl_append, AccessRequest.foldl_included_nil,
    AccessRequest.foldl_included]

theorem distinct_distinct (l : List Text) : distinct (distinct l) = distinct l :=
  distinct_of_nodup (nodup_distinct l)

theorem distinct_flatMap_distinct {α : Type} (parts : List α) (k : α → List Text) :
    distinct (parts.flatMap fun part => distinct (k part)) = distinct (parts.flatMap k) := by
  induction parts with
  | nil => rfl
  | cons part parts ih =>
    rw [List.flatMap_cons, List.flatMap_cons, distinct_append, distinct_distinct, ih,
      ← distinct_append]

theorem distinct_filter (p : Text → Bool) (l : List Text) :
    distinct (l.filter p) = (distinct l).filter p := by
  induction l with
  | nil => rfl
  | cons x l ih =>
    rw [List.filter_cons, distinct, List.filter_cons, List.filter_filter]
    split
    · rw [distinct, ih, List.filter_filter]
      simp only [Bool.and_comm]
    · next hx =>
      rw [ih]
      refine List.filter_congr fun y _ => ?_
      by_cases hy : y = x
      · subst hy
        simp [hx]
      · simp [hy]

theorem distinct_eq_eraseDups : ∀ l : List Text, distinct l = l.eraseDups
  | [] => rfl
  | x :: l => by
    have hshorter : (l.filter fun y => !y == x).length < l.length + 1 :=
      Nat.lt_succ_of_le (List.length_filter_le _ _)
    have hfilter : (distinct l).filter (· ≠ x) = distinct (l.filter fun y => !y == x) := by
      rw [distinct_filter]
      refine List.filter_congr fun y _ => ?_
      by_cases hy : y = x <;> simp [hy]
    rw [distinct, hfilter, List.eraseDups_cons, distinct_eq_eraseDups]
termination_by l => l.length

end Lists
end Text

namespace Scope
open Text

variable {raw : Text}

theorem isWord_of_mem_parse {word : Text} (h : word ∈ parse raw) : IsWord word := by
  rw [parse_eq] at h
  exact isWord_of_mem_words (mem_distinct.mp h)

theorem parse_join {scopes : List Text} (h : ∀ word ∈ scopes, IsWord word) :
    parse (join scopes) = distinct scopes := by
  rw [parse_eq, words_join h]

theorem parse_join_parse (raw : Text) : parse (join (parse raw)) = parse raw := by
  rw [parse_join fun _ => isWord_of_mem_parse, parse_eq]
  exact distinct_distinct _

/-- The scopes of a text are the words of which it is a phrase, without later repeats. They are read
back from their own text, so no two such lists have the same text. -/
theorem scopes_survive (raw : Text) :
    ∃ words, (∀ words', Phrase raw words' ↔ words' = words) ∧
      parse raw = words.eraseDups ∧ (parse raw).Nodup ∧ (∀ word, word ∈ parse raw ↔ word ∈ words) ∧
      (∀ word ∈ parse raw, word ≠ [] ∧ ∀ l ∈ word, isBlank l = false) ∧
      parse (join (parse raw)) = parse raw ∧
      ∀ raw', join (parse raw') = join (parse raw) ↔ parse raw' = parse raw := by
  refine ⟨words raw, fun _ => phrase_iff, ?_, ?_, ?_, fun _ => isWord_of_mem_parse,
    parse_join_parse raw, fun raw' => ⟨fun h => ?_, fun h => by rw [h]⟩⟩
  · rw [parse_eq, distinct_eq_eraseDups]
  · rw [parse_eq]
    exact nodup_distinct _
  · intro word
    rw [parse_eq, mem_distinct]
  · rw [← parse_join_parse raw', h, parse_join_parse raw]

theorem repeated_read_survives :
    (↑"write" : Text) ∈ parse "read \t write\nread" ∧
      (∀ l ∈ (↑"write" : Text), isBlank l = false) ∧
      parse "read \t write\nread" = [↑"read", ↑"write"] ∧
      parse (join [↑"read", ↑"write"]) = [↑"read", ↑"write"] := by
  have hparse : parse "read \t write\nread" = [↑"read", ↑"write"] := by decide +kernel
  obtain ⟨_, -, -, -, -, hword, hback, -⟩ := scopes_survive "read \t write\nread"
  have hmem : (↑"write" : Text) ∈ parse "read \t write\nread" := by
    rw [hparse]
    exact List.mem_cons_of_mem _ List.mem_cons_self
  exact ⟨hmem, (hword "write" hmem).2, hparse, hparse ▸ hback⟩

end Scope
end AssertionGrant
