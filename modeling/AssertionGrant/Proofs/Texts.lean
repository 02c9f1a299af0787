import Mathlib.Data.List.Basic
import Mathlib.Data.List.Induction
import AssertionGrant.Text.Letter

/-! Strings as texts, and the string of a text that has one. -/

namespace AssertionGrant

namespace Letter

theorem code_injective {l l' : Letter} (h : l.code = l'.code) : l = l' := by
  cases l with
  | char c =>
    cases l' with
    | char d => rw [Char.toNat_inj.mp h]
    | half n =>
      have hv : c.toNat < 0xD800 ∨ 0xDFFF < c.toNat ∧ c.toNat < 0x110000 := c.valid
      change c.toNat = 0xD800 + n.val at h
      omega
  | half n =>
    cases l' with
    | char c =>
      have hv : c.toNat < 0xD800 ∨ 0xDFFF < c.toNat ∧ c.toNat < 0x110000 := c.valid
      change 0xD800 + n.val = c.toNat at h
      omega
    | half m =>
      have h : 0xD800 + n.val = 0xD800 + m.val := h
      rw [Fin.ext (Nat.add_left_cancel h)]

theorem ofCode_code (l : Letter) : ofCode l.code = l := by
  unfold ofCode
  cases l with
  | char c =>
    have hv : c.toNat.isValidChar := c.valid
    rw [code, if_pos hv, Char.ofNat_toNat]
  | half n =>
    have hv : ¬ (0xD800 + n.val).isValidChar := by
      unfold Nat.isValidChar
      omega
    rw [code, if_neg hv, Nat.add_sub_cancel_left]
    exact congrArg half (Fin.ext (Nat.mod_eq_of_lt n.isLt))

theorem ofCode_toNat (c : Char) : ofCode c.toNat = .char c := ofCode_code (.char c)

end Letter

namespace Text

variable {s s' : String} {t : Text}

theorem ofString_ofList (cs : List Char) : ofString (String.ofList cs) = cs.map .char := by
  rw [ofString, String.toList_ofList]

@[simp]
theorem ofString_append (s s' : String) : ofString (s ++ s') = ofString s ++ ofString s' := by
  rw [ofString, String.toList_append, List.map_append]
  rfl

@[simp]
theorem length_ofString (s : String) : (ofString s).length = s.length := by
  rw [ofString, List.length_map, String.length_toList]

theorem map_char_injective {cs cs' : List Char}
    (h : cs.map Letter.char = cs'.map Letter.char) : cs = cs' :=
  (List.map_injective_iff.mpr fun _ _ e => Letter.char.inj e) h

theorem filterMap_char?_map (cs : List Char) : (cs.map Letter.char).filterMap Letter.char? = cs := by
  rw [List.filterMap_map]
  exact List.filterMap_some

@[simp]
theorem ofString_inj : ofString s = ofString s' ↔ s = s' :=
  ⟨fun h => String.toList_injective (map_char_injective h), congrArg _⟩

theorem mapM_char?_eq_some {cs : List Char} : t.mapM Letter.char? = some cs ↔ t = cs.map .char := by
  induction t generalizing cs with
  | nil => cases cs <;> simp
  | cons l t ih =>
    rw [List.mapM_cons]
    cases cs <;> cases l <;> simp [Letter.char?, ih, Option.bind_eq_some_iff, and_comm]

theorem toString?_eq_some : t.toString? = some s ↔ t = ofString s := by
  rw [toString?, Option.map_eq_some_iff]
  constructor
  · rintro ⟨cs, hcs, rfl⟩
    rw [mapM_char?_eq_some.mp hcs, ofString_ofList]
  · rintro rfl
    exact ⟨s.toList, mapM_char?_eq_some.mpr rfl, String.ofList_toList⟩

theorem isSome_toString?_iff : t.toString?.isSome = true ↔ ∀ l ∈ t, ∃ c : Char, l = c := by
  constructor
  · intro h l hl
    obtain ⟨s, hs⟩ := Option.isSome_iff_exists.mp h
    rw [toString?_eq_some.mp hs] at hl
    obtain ⟨c, -, rfl⟩ := List.mem_map.mp hl
    exact ⟨c, rfl⟩
  · intro h
    have hchars : ∃ cs : List Char, t = cs.map .char := by
      induction t with
      | nil => exact ⟨[], rfl⟩
      | cons l t ih =>
        obtain ⟨⟨c, rfl⟩, ht⟩ := List.forall_mem_cons.mp h
        obtain ⟨cs, rfl⟩ := ih ht
        exact ⟨c :: cs, rfl⟩
    obtain ⟨cs, rfl⟩ := hchars
    rw [toString?, mapM_char?_eq_some.mpr rfl]
    rfl

theorem isUpTo_map_char {cs cs' : List Char} :
    isUpTo (cs.map .char) (cs'.map .char) = true ↔ ¬ List.Lex (· < ·) cs' cs := by
  induction cs generalizing cs' with
  | nil => simp [isUpTo]
  | cons c cs ih =>
    cases cs' with
    | nil => simp [isUpTo]
    | cons d cs' =>
      have hgt : d < c ↔ d.toNat < c.toNat := Iff.rfl
      change (decide (c.toNat < d.toNat) || decide (c.toNat = d.toNat) && isUpTo _ _) = true ↔ _
      rw [List.cons_lex_cons_iff, Bool.or_eq_true, Bool.and_eq_true, decide_eq_true_eq,
        decide_eq_true_eq, ih, hgt, ← Char.toNat_inj, not_or, not_and, Nat.not_lt]
      constructor
      · rintro (h | ⟨h, hcs⟩)
        · exact ⟨Nat.le_of_lt h, fun e => absurd e (Nat.ne_of_gt h)⟩
        · exact ⟨Nat.le_of_eq h, fun _ => hcs⟩
      · rintro ⟨h, hcs⟩
        exact (Nat.lt_or_eq_of_le h).imp_right fun e => ⟨e, hcs e.symm⟩

theorem isUpTo_ofString (s s' : String) : (ofString s).isUpTo (ofString s') = decide (s ≤ s') := by
  have h : ¬ s' < s ↔ ¬ List.Lex (· < ·) s'.toList s.toList := not_congr String.lt_iff
  rw [Bool.eq_iff_iff, decide_eq_true_eq, ← String.not_lt, h]
  exact isUpTo_map_char

theorem isUpTo_trans {r s t : Text} (h : r.isUpTo s = true) (h' : s.isUpTo t = true) :
    r.isUpTo t = true := by
  induction r generalizing s t with
  | nil => rfl
  | cons l r ih =>
    cases s with
    | nil => cases h
    | cons m s =>
      cases t with
      | nil => cases h'
      | cons n t =>
        simp only [isUpTo, Bool.or_eq_true, Bool.and_eq_true, decide_eq_true_eq] at h h' ⊢
        rcases h with h | ⟨h, hs⟩ <;> rcases h' with h' | ⟨h', ht⟩
        · exact .inl (Nat.lt_trans h h')
        · exact .inl (h' ▸ h)
        · exact .inl (h ▸ h')
        · exact .inr ⟨h.trans h', ih hs ht⟩

theorem isUpTo_total (s t : Text) : (s.isUpTo t || t.isUpTo s) = true := by
  induction s generalizing t with
  | nil => rfl
  | cons l s ih =>
    cases t with
    | nil => rfl
    | cons m t =>
      have ih := ih t
      simp only [isUpTo, Bool.or_eq_true, Bool.and_eq_true, decide_eq_true_eq] at ih ⊢
      rcases Nat.lt_trichotomy l.code m.code with h | h | h
      · exact .inl (.inl h)
      · exact ih.imp (fun hst => .inr ⟨h, hst⟩) fun hts => .inr ⟨h.symm, hts⟩
      · exact .inr (.inl h)

theorem lex_of_isUpTo {s t : Text} (h : s.isUpTo t = true) (hne : s ≠ t) :
    List.Lex (fun l m => l.code < m.code) s t := by
  induction s generalizing t with
  | nil =>
    cases t with
    | nil => exact absurd rfl hne
    | cons m t => exact .nil
  | cons l s ih =>
    cases t with
    | nil => cases h
    | cons m t =>
      simp only [isUpTo, Bool.or_eq_true, Bool.and_eq_true, decide_eq_true_eq] at h
      rcases h with h | ⟨hcode, hs⟩
      · exact .rel h
      · obtain rfl := Letter.code_injective hcode
        exact .cons (ih hs fun e => hne (e ▸ rfl))

def Joins (l : Letter) (t : Text) : Prop :=
  ∃ hi lo rest, l = .half hi ∧ t = .half lo :: rest ∧ hi.val < 1024 ∧ 1024 ≤ lo.val

theorem exists_char_of_joined {hi lo : Fin 2048} (hhi : hi.val < 1024) (hlo : 1024 ≤ lo.val) :
    ∃ c : Char, Letter.ofCode (joined hi lo) = .char c ∧
      c.toNat = 0x10000 + hi.val * 1024 + (lo.val - 1024) := by
  have hn : (joined hi lo).isValidChar := by
    unfold joined Nat.isValidChar
    omega
  refine ⟨Char.ofNat (joined hi lo), ?_, ?_⟩
  · rw [Letter.ofCode, if_pos hn]
  · rw [Char.ofNat, dif_pos hn]
    rfl

theorem merged_pair {hi lo : Fin 2048} (hhi : hi.val < 1024) (hlo : 1024 ≤ lo.val) (t : Text) :
    merged (.half hi :: .half lo :: t) = .ofCode (joined hi lo) :: merged t := by
  rw [merged, if_pos ⟨hhi, hlo⟩]

theorem merged_cons {l : Letter} (h : ¬ Joins l t) : merged (l :: t) = l :: merged t := by
  rw [merged.eq_def]
  split
  · next hi lo rest e =>
    obtain ⟨rfl, rfl⟩ := List.cons.inj e
    rw [if_neg fun hpair => h ⟨hi, lo, rest, rfl, rfl, hpair⟩]
  · next e =>
    obtain ⟨rfl, rfl⟩ := List.cons.inj e
    rfl
  · next e => cases e

theorem merged_char_cons (c : Char) (t : Text) : merged (.char c :: t) = .char c :: merged t :=
  merged_cons fun ⟨_, _, _, e, _⟩ => nomatch e

@[simp]
theorem merged_map_char (cs : List Char) : merged (cs.map .char) = cs.map .char := by
  induction cs with
  | nil => rfl
  | cons c cs ih => rw [List.map_cons, merged_char_cons, ih]

@[simp]
theorem merged_ofString (s : String) : merged (ofString s) = ofString s := merged_map_char _

theorem merged_induction {motive : Text → Prop} (nil : motive [])
    (pair : ∀ (hi lo : Fin 2048) (t : Text), hi.val < 1024 → 1024 ≤ lo.val → motive t →
      motive (.half hi :: .half lo :: t))
    (cons : ∀ (l : Letter) (t : Text), ¬ Joins l t → motive t → motive (l :: t)) (t : Text) :
    motive t := by
  induction t using List.twoStepInduction with
  | nil => exact nil
  | singleton l => exact cons l [] (fun ⟨_, _, _, _, e, _⟩ => nomatch e) nil
  | cons_cons l l' t ih ih' =>
    by_cases h : Joins l (l' :: t)
    · obtain ⟨hi, lo, rest, rfl, e, hhi, hlo⟩ := h
      obtain ⟨rfl, rfl⟩ := List.cons.inj e
      exact pair hi lo _ hhi hlo ih
    · exact cons l _ h (ih' l')

end Text
end AssertionGrant
