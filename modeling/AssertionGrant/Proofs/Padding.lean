import AssertionGrant.Proofs.Phrases
import Mathlib.Data.List.DropRight

/-! Blanks around texts. Trimming takes off what stands around the core of a text and nothing else, in
letters of either case. A list that is written with commas has the same items whatever blanks stand
around it or around them. -/

namespace AssertionGrant.Text

variable {core s t : Text}

/-- A text with nothing but blanks around a core. -/
def Padded (core s : Text) : Prop :=
  ∃ before after : Text, (∀ l ∈ before ++ after, isBlank l = true) ∧ s = before ++ (core ++ after)

theorem Padded.refl (s : Text) : Padded s s := ⟨[], [], nofun, (List.append_nil _).symm⟩

theorem Padded.trim_eq (h : Padded core s) : trim s = trim core := by
  obtain ⟨before, after, hblank, hs⟩ := h
  obtain ⟨hbefore, hafter⟩ := List.forall_mem_append.mp hblank
  have hback (t : Text) :
      (t ++ after).reverse.dropWhile isBlank = t.reverse.dropWhile isBlank := by
    rw [List.reverse_append, List.dropWhile_append_of_pos]
    exact fun l hl => hafter l (List.mem_reverse.mp hl)
  unfold trim Splitting.trimBoth Splitting.trimEnd
  rw [hs, List.dropWhile_append_of_pos hbefore, List.dropWhile_append]
  split
  · next hcore => rw [List.isEmpty_iff.mp hcore, List.dropWhile_eq_nil_iff.mpr hafter]
  · rw [hback]

theorem padded_trim (s : Text) : Padded (trim s) s := by
  refine ⟨s.takeWhile isBlank, (s.dropWhile isBlank).rtakeWhile isBlank, ?_, ?_⟩
  · rw [List.forall_mem_append]
    exact ⟨fun l => List.mem_takeWhile_imp, fun l => List.mem_rtakeWhile_imp⟩
  · have htrim : trim s = (s.dropWhile isBlank).rdropWhile isBlank := rfl
    rw [htrim, List.rdropWhile_append_rtakeWhile, List.takeWhile_append_dropWhile]

theorem trim_eq_trim_iff : trim s = trim t ↔ ∃ core, Padded core s ∧ Padded core t := by
  constructor
  · intro h
    exact ⟨trim s, padded_trim s, h ▸ padded_trim t⟩
  · rintro ⟨core, hs, ht⟩
    rw [hs.trim_eq, ht.trim_eq]

theorem trim_eq_nil_iff : trim s = [] ↔ ∀ l ∈ s, isBlank l = true := by
  constructor
  · intro h
    obtain ⟨before, after, hblank, hs⟩ := padded_trim s
    rw [h, List.nil_append] at hs
    rwa [hs]
  · intro h
    have hpadded : Padded [] s := ⟨s, [], by rwa [List.append_nil], by simp⟩
    exact hpadded.trim_eq

section Case

theorem isBlank_lowerLetter (l : Letter) : isBlank (lowerLetter l) = isBlank l := by
  have hall : ∀ n < 91, 65 ≤ n →
      Chars.isBlank (Char.ofNat (n + 32)) = Chars.isBlank (Char.ofNat n) := by
    decide
  cases l with
  | half n => rfl
  | char c =>
    change Chars.isBlank (Chars.lower c) = Chars.isBlank c
    unfold Chars.lower
    split
    · next h =>
      have hlow : 65 ≤ c.toNat := h.1
      have hhigh : c.toNat ≤ 90 := h.2
      have hc := hall c.toNat (by omega) hlow
      rwa [Char.ofNat_toNat] at hc
    · rfl

theorem trim_asciiLower (s : Text) : trim (asciiLower s) = asciiLower (trim s) := by
  have hdrop (t : Text) :
      (t.map lowerLetter).dropWhile isBlank = (t.dropWhile isBlank).map lowerLetter := by
    have hblank : isBlank ∘ lowerLetter = isBlank := funext isBlank_lowerLetter
    rw [List.dropWhile_map, hblank]
  unfold trim asciiLower Splitting.trimBoth Splitting.trimEnd
  simp only [hdrop, ← List.map_reverse]

end Case

section Lists

def items (s : Text) : List Text := Splitting.pieces (.char ',') s

variable {l : List Text} {p : Letter → Bool} {before after : Text}

structure Written (l : List Text) (s : Text) : Prop where
  whole : ∀ item ∈ l, .char ',' ∉ item
  text : s = List.intercalate [.char ','] l

def significant (l : List Text) : List Text := (l.map trim).filter (!·.isEmpty)

theorem Written.significant_eq (h : Written l s) : significant (items s) = significant l := by
  rw [h.text]
  cases l with
  | nil => decide
  | cons item l =>
    rw [items, Splitting.pieces_intercalate (List.cons_ne_nil _ _) h.whole]

theorem splitOnP_front (hbefore : ∀ l ∈ before, p l = false) (t : Text) :
    (before ++ t).splitOnP p = (t.splitOnP p).modifyHead (before ++ ·) := by
  induction before with
  | nil => exact (congrFun List.modifyHead_id (t.splitOnP p)).symm
  | cons l before ih =>
    obtain ⟨hl, hbefore⟩ := List.forall_mem_cons.mp hbefore
    rw [List.cons_append, List.splitOnP_cons_eq_if_modifyHead, if_neg (by simp [hl]), ih hbefore,
      List.modifyHead_modifyHead]
    rfl

theorem exists_splitOnP_back (hafter : ∀ l ∈ after, p l = false) (t : Text) :
    ∃ init last, t.splitOnP p = init ++ [last] ∧
      (t ++ after).splitOnP p = init ++ [last ++ after] := by
  induction t with
  | nil => exact ⟨[], [], rfl, List.splitOnP_eq_singleton hafter⟩
  | cons l t ih =>
    obtain ⟨init, last, h, h'⟩ := ih
    rw [List.cons_append, List.splitOnP_cons_eq_if_modifyHead, List.splitOnP_cons_eq_if_modifyHead,
      h, h']
    split
    · exact ⟨[] :: init, last, rfl, rfl⟩
    · cases init with
      | nil => exact ⟨[], l :: last, rfl, rfl⟩
      | cons first init => exact ⟨(l :: first) :: init, last, rfl, rfl⟩

theorem Padded.significant_eq (h : Padded core s) :
    significant (items s) = significant (items core) := by
  obtain ⟨before, after, hblank, hs⟩ := h
  have hcomma : ∀ l ∈ before ++ after, (l == .char ',') = false := by
    intro l hl
    have hne : l ≠ .char ',' := by
      rintro rfl
      cases hblank (.char ',') hl
    simpa using hne
  obtain ⟨hbefore, hafter⟩ := List.forall_mem_append.mp hcomma
  rw [List.forall_mem_append] at hblank
  have hitems (s : Text) : items s = s.splitOnP (· == .char ',') :=
    Splitting.piecesBetween_eq _ s
  have hfront (piece : Text) : trim (before ++ piece) = trim piece :=
    Padded.trim_eq ⟨before, [], by simpa using hblank.1, by simp⟩
  have hback (piece : Text) : trim (piece ++ after) = trim piece :=
    Padded.trim_eq ⟨[], after, by simpa using hblank.2, by simp⟩
  obtain ⟨init, last, h, h'⟩ := exists_splitOnP_back hafter core
  unfold significant
  rw [hitems, hitems, hs, splitOnP_front hbefore, h, h']
  cases init with
  | nil =>
    simp only [List.nil_append, List.modifyHead_cons, List.map_cons, List.map_nil, hfront, hback]
  | cons first init =>
    simp only [List.cons_append, List.modifyHead_cons, List.map_cons, List.map_append, List.map_nil,
      hfront, hback]

end Lists
end AssertionGrant.Text
