import Mathlib.Data.List.Induction
import Mathlib.Data.List.Nodup

/-! Lists with one item at most in a place. An item that comes where another one is takes its position
in the list. What is in such a list, and in which order, is told by the history of its changes: the
items whose places were last touched by putting them there, in the order in which their places were
filled. -/

namespace AssertionGrant

inductive Shelf.Change (α κ : Type) where
  | put (item : α)
  | clear (place : κ)

namespace Shelf

variable {α κ : Type} {place : α → κ} {a b : α} {k k' : κ} {l : List α} {c : Change α κ}
  {history : List (Change α κ)} {i j : Nat}

section Lists

variable [DecidableEq κ]

def put (place : α → κ) (a : α) : List α → List α
  | [] => [a]
  | b :: l => if place b = place a then a :: l else b :: put place a l

def change (place : α → κ) (l : List α) : Change α κ → List α
  | .put a => put place a l
  | .clear k => l.filter fun a => decide (place a ≠ k)

def after (place : α → κ) (history : List (Change α κ)) : List α := history.foldl (change place) []

theorem after_concat (place : α → κ) (history : List (Change α κ)) (c : Change α κ) :
    after place (history ++ [c]) = change place (after place history) c :=
  List.foldl_concat _ _ _ _

theorem map_put (place : α → κ) (a : α) (l : List α) : (put place a l).map place =
    if place a ∈ l.map place then l.map place else l.map place ++ [place a] := by
  induction l with
  | nil => rfl
  | cons b l ih =>
    rw [put]
    split
    · next h => rw [List.map_cons, List.map_cons, h, if_pos List.mem_cons_self]
    · next h =>
      have hne : ¬ place a = place b := fun e => h e.symm
      rw [List.map_cons, ih, List.map_cons]
      simp only [List.mem_cons, hne, false_or]
      split <;> rfl

theorem map_put_eq {β : Type} {f : α → β} (place' : β → κ)
    (h : ∀ b ∈ a :: l, place' (f b) = place b) :
    (put place a l).map f = put place' (f a) (l.map f) := by
  induction l with
  | nil => rfl
  | cons b l ih =>
    obtain ⟨ha, hb, hl⟩ : _ ∧ _ ∧ _ := by simpa using h
    rw [put, List.map_cons, put, ha, hb]
    split
    · rfl
    · rw [List.map_cons, ih (List.forall_mem_cons.mpr ⟨ha, hl⟩)]

theorem mem_put (h : (l.map place).Nodup) :
    b ∈ put place a l ↔ b = a ∨ b ∈ l ∧ place b ≠ place a := by
  induction l with
  | nil => simp [put]
  | cons d l ih =>
    obtain ⟨hd, h⟩ := List.nodup_cons.mp h
    have hother (hb : b ∈ l) : place b ≠ place d := fun e => hd (e ▸ List.mem_map_of_mem hb)
    rw [put]
    split
    · next hda =>
      rw [List.mem_cons, List.mem_cons, ← hda]
      constructor
      · rintro (rfl | hb)
        · exact .inl rfl
        · exact .inr ⟨.inr hb, hother hb⟩
      · rintro (rfl | ⟨rfl | hb, hne⟩)
        · exact .inl rfl
        · exact absurd rfl hne
        · exact .inr hb
    · next hda =>
      rw [List.mem_cons, List.mem_cons, ih h]
      constructor
      · rintro (rfl | rfl | ⟨hb, hne⟩)
        · exact .inr ⟨.inl rfl, hda⟩
        · exact .inl rfl
        · exact .inr ⟨.inr hb, hne⟩
      · rintro (rfl | ⟨rfl | hb, hne⟩)
        · exact .inr (.inl rfl)
        · exact .inl rfl
        · exact .inr (.inr ⟨hb, hne⟩)

theorem mem_of_mem_put (h : b ∈ put place a l) : b = a ∨ b ∈ l := by
  induction l with
  | nil => exact .inl (List.mem_singleton.mp h)
  | cons d l ih =>
    rw [put] at h
    split at h
    · exact (List.mem_cons.mp h).imp id (List.mem_cons_of_mem _)
    · rcases List.mem_cons.mp h with rfl | h
      · exact .inr List.mem_cons_self
      · exact (ih h).imp id (List.mem_cons_of_mem _)

theorem nodup_put (h : (l.map place).Nodup) (a : α) : ((put place a l).map place).Nodup := by
  rw [map_put]
  split
  · exact h
  · next hne =>
    refine List.nodup_append.mpr ⟨h, List.pairwise_singleton _ _, fun k hk k' hk' => ?_⟩
    rw [List.mem_singleton.mp hk']
    rintro rfl
    exact hne hk

theorem nodup_change (h : (l.map place).Nodup) (c : Change α κ) :
    ((change place l c).map place).Nodup := by
  cases c with
  | put a => exact nodup_put h a
  | clear k => exact h.sublist (List.filter_sublist.map _)

theorem nodup_after (place : α → κ) (history : List (Change α κ)) :
    ((after place history).map place).Nodup := by
  induction history using List.reverseRecOn with
  | nil => exact List.nodup_nil
  | append_singleton history c ih =>
    rw [after_concat]
    exact nodup_change ih c

theorem find?_eq_some_iff (h : (l.map place).Nodup) :
    (l.find? fun a => decide (place a = k)) = some a ↔ a ∈ l ∧ place a = k := by
  constructor
  · intro hf
    exact ⟨List.mem_of_find?_eq_some hf, by simpa using List.find?_some hf⟩
  · rintro ⟨ha, rfl⟩
    obtain ⟨b, hb⟩ : ∃ b, (l.find? fun b => decide (place b = place a)) = some b := by
      rw [← Option.isSome_iff_exists, List.find?_isSome]
      exact ⟨a, ha, decide_eq_true rfl⟩
    have hplace : place b = place a := by simpa using List.find?_some hb
    rw [hb, List.inj_on_of_nodup_map h (List.mem_of_find?_eq_some hb) ha hplace]

end Lists

def At (place : α → κ) (k : κ) : Change α κ → Prop
  | .put a => place a = k
  | .clear k' => k' = k

def Stands (place : α → κ) (history : List (Change α κ)) (a : α) : Prop :=
  ∃ before later, history = before ++ .put a :: later ∧ ∀ c ∈ later, ¬ At place (place a) c

/-- The change number `i` has filled a place where nothing stood, and the place has not been cleared
since. -/
def FilledAt (place : α → κ) (history : List (Change α κ)) (i : Nat) (k : κ) : Prop :=
  ∃ before a later, history = before ++ .put a :: later ∧ before.length = i ∧ place a = k ∧
    (∀ b, Stands place before b → place b ≠ k) ∧ .clear k ∉ later

theorem stands_concat : Stands place (history ++ [c]) a ↔
    c = .put a ∨ Stands place history a ∧ ¬ At place (place a) c := by
  constructor
  · rintro ⟨before, later, e, hlater⟩
    rcases List.eq_nil_or_concat later with rfl | ⟨later, d, rfl⟩
    · obtain ⟨-, hc⟩ := List.append_inj' e rfl
      exact .inl (List.singleton_inj.mp hc)
    · rw [List.concat_eq_append, ← List.cons_append, ← List.append_assoc] at e
      obtain ⟨hhistory, hc⟩ := List.append_inj' e rfl
      obtain rfl := List.singleton_inj.mp hc
      refine .inr ⟨⟨before, later, hhistory, fun d hd => hlater d ?_⟩, hlater c ?_⟩
      · simp [hd]
      · simp
  · rintro (rfl | ⟨⟨before, later, rfl, hlater⟩, hc⟩)
    · exact ⟨history, [], rfl, nofun⟩
    · refine ⟨before, later ++ [c], by simp, fun d hd => ?_⟩
      rcases List.mem_append.mp hd with hd | hd
      · exact hlater d hd
      · rwa [List.mem_singleton.mp hd]

theorem mem_after [DecidableEq κ] : a ∈ after place history ↔ Stands place history a := by
  induction history using List.reverseRecOn with
  | nil => simp [after, Stands]
  | append_singleton history c ih =>
    rw [after_concat, stands_concat, ← ih]
    cases c with
    | put b =>
      rw [change, mem_put (nodup_after place history)]
      simp only [At, Change.put.injEq, @eq_comm _ a b, @eq_comm _ (place a) (place b), ne_eq]
    | clear k => simp [change, At, @eq_comm _ k]

theorem find?_after_eq_some [DecidableEq κ] :
    ((after place history).find? fun a => decide (place a = k)) = some a ↔
      Stands place history a ∧ place a = k := by
  rw [find?_eq_some_iff (nodup_after place history), mem_after]

theorem find?_after_eq_none [DecidableEq κ] :
    ((after place history).find? fun a => decide (place a = k)) = none ↔
      ¬ ∃ a, Stands place history a ∧ place a = k := by
  rw [← Option.not_isSome_iff_eq_none, Option.isSome_iff_exists]
  exact not_congr (exists_congr fun a => find?_after_eq_some)

theorem exists_stands (before : List (Change α κ)) {later : List (Change α κ)}
    (h : .clear (place a) ∉ later) :
    ∃ b, Stands place (before ++ .put a :: later) b ∧ place b = place a := by
  induction later using List.reverseRecOn with
  | nil => exact ⟨a, ⟨before, [], rfl, nofun⟩, rfl⟩
  | append_singleton later c ih =>
    obtain ⟨b, hb, hplace⟩ := ih fun hmem => h (List.mem_append_left _ hmem)
    rw [← List.cons_append, ← List.append_assoc]
    cases c with
    | put d =>
      by_cases hd : place d = place a
      · exact ⟨d, stands_concat.mpr (.inl rfl), hd⟩
      · exact ⟨b, stands_concat.mpr (.inr ⟨hb, fun e => hd (e.trans hplace)⟩), hplace⟩
    | clear k =>
      refine ⟨b, stands_concat.mpr (.inr ⟨hb, fun e => h ?_⟩), hplace⟩
      have hk : k = place a := Eq.trans e hplace
      simp [hk]

theorem FilledAt.lt (h : FilledAt place history i k) : i < history.length := by
  obtain ⟨before, a, later, rfl, rfl, -⟩ := h
  simp

theorem FilledAt.concat (h : FilledAt place history i k) (hc : c ≠ .clear k) :
    FilledAt place (history ++ [c]) i k := by
  obtain ⟨before, a, later, rfl, hi, hplace, hempty, hkept⟩ := h
  refine ⟨before, a, later ++ [c], by simp, hi, hplace, hempty, fun hmem => ?_⟩
  rcases List.mem_append.mp hmem with hmem | hmem
  · exact hkept hmem
  · exact hc (List.mem_singleton.mp hmem).symm

theorem filledAt_length (h : ∀ b, Stands place history b → place b ≠ place a) :
    FilledAt place (history ++ [.put a]) history.length (place a) :=
  ⟨history, a, [], rfl, rfl, rfl, h, nofun⟩

theorem FilledAt.le (h : FilledAt place history i k) (h' : FilledAt place history j k) : j ≤ i := by
  obtain ⟨before, a, later, rfl, rfl, rfl, -, hkept⟩ := h
  obtain ⟨before', a', later', e, rfl, -, hempty', -⟩ := h'
  by_contra hlt
  -- Otherwise the second of the two changes would have found the place filled.
  rcases List.append_eq_append_iff.mp e with ⟨between, rfl, hrest⟩ | ⟨between, rfl, -⟩
  · cases between with
    | nil => simp at hlt
    | cons c between =>
      obtain ⟨rfl, rfl⟩ := List.cons.inj hrest
      have hcleared : .clear (place a) ∉ between :=
        fun hmem => hkept (List.mem_append_left _ hmem)
      obtain ⟨b, hb, hplace⟩ := exists_stands before hcleared
      exact hempty' b hb hplace
  · simp at hlt

theorem FilledAt.iff_eq (h : FilledAt place history i k) : FilledAt place history j k ↔ j = i := by
  constructor
  · exact fun h' => Nat.le_antisymm (h.le h') (h'.le h)
  · rintro rfl
    exact h

def Earlier (place : α → κ) (history : List (Change α κ)) (k k' : κ) : Prop :=
  ∃ i i', i < i' ∧ (∀ j, FilledAt place history j k ↔ j = i) ∧
    ∀ j, FilledAt place history j k' ↔ j = i'

theorem FilledAt.earlier (h : FilledAt place history i k) (h' : FilledAt place history j k')
    (hlt : i < j) : Earlier place history k k' := ⟨i, j, hlt, fun _ => h.iff_eq, fun _ => h'.iff_eq⟩

theorem Earlier.concat (h : Earlier place history k k') (hc : c ≠ .clear k) (hc' : c ≠ .clear k') :
    Earlier place (history ++ [c]) k k' := by
  obtain ⟨i, i', hlt, hi, hi'⟩ := h
  exact (((hi i).mpr rfl).concat hc).earlier (((hi' i').mpr rfl).concat hc') hlt

theorem filled_after [DecidableEq κ] (place : α → κ) (history : List (Change α κ)) :
    (∀ k ∈ (after place history).map place, ∃ i, FilledAt place history i k) ∧
      ((after place history).map place).Pairwise (Earlier place history) := by
  -- By the last change: it clears a place, or fills a new one, which is filled last of all.
  induction history using List.reverseRecOn with
  | nil => exact ⟨nofun, List.Pairwise.nil⟩
  | append_singleton history c ih =>
    obtain ⟨hfilled, hordered⟩ := ih
    rw [after_concat]
    cases c with
    | put a =>
      have hkept (k : κ) : Change.put a ≠ .clear k := nofun
      have hfilled' : ∀ k ∈ (after place history).map place,
          ∃ i, FilledAt place (history ++ [.put a]) i k := fun k hk =>
        (hfilled k hk).imp fun i hi => hi.concat (hkept k)
      have hordered' := hordered.imp fun h => h.concat (hkept _) (hkept _)
      rw [change, map_put]
      split
      · exact ⟨hfilled', hordered'⟩
      · next hnew =>
        have hempty : ∀ b, Stands place history b → place b ≠ place a := fun b hb e =>
          hnew (e ▸ List.mem_map_of_mem (mem_after.mpr hb))
        have hlast := filledAt_length hempty
        constructor
        · intro k hk
          rcases List.mem_append.mp hk with hk | hk
          · exact hfilled' k hk
          · rw [List.mem_singleton.mp hk]
            exact ⟨_, hlast⟩
        · refine List.pairwise_append.mpr
            ⟨hordered', List.pairwise_singleton _ _, fun k hk k' hk' => ?_⟩
          obtain ⟨i, hi⟩ := hfilled k hk
          rw [List.mem_singleton.mp hk']
          exact (hi.concat (hkept k)).earlier hlast hi.lt
    | clear k =>
      have hleft {k' : κ} (hk' : k' ∈ (change place (after place history) (.clear k)).map place) :
          Change.clear (α := α) k ≠ .clear k' ∧ k' ∈ (after place history).map place := by
        obtain ⟨a, ha, rfl⟩ := List.mem_map.mp hk'
        obtain ⟨hmem, hne⟩ := List.mem_filter.mp ha
        refine ⟨?_, List.mem_map_of_mem hmem⟩
        rintro ⟨⟩
        simp at hne
      refine ⟨fun k' hk' => ?_, ?_⟩
      · obtain ⟨hne, hmem⟩ := hleft hk'
        exact (hfilled k' hmem).imp fun i hi => hi.concat hne
      · refine (hordered.sublist (List.filter_sublist.map _)).imp_of_mem fun hk hk' h => ?_
        exact h.concat (hleft hk).1 (hleft hk').1

end Shelf
end AssertionGrant
