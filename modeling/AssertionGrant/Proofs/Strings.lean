import AssertionGrant.Proofs.Digits

/-! The text of a string reads back as the string with its pairs of halves joined: a letter is
written as itself, as a short escape, or as one or two escaped units, and the escapes of two halves
that make a pair are those of the one letter. -/

namespace AssertionGrant.Json

variable {opening fuel : Nat} {rest : Text}

def prepend (l : Letter) (p : Text × Text) : Text × Text := (l :: p.1, p.2)

theorem bind_prepend (x : Except Stop (Text × Text)) (l : Letter) :
    (x >>= fun (more, rest) => pure (l :: more, rest)) = x.map (prepend l) := by
  cases x <;> rfl

theorem stringBody_plain {l : Letter} (h₁ : l ≠ '"') (h₂ : l ≠ '\\') (h₃ : 32 ≤ l.code) :
    stringBody opening (fuel + 1) (l :: rest) =
      (stringBody opening fuel rest).map (prepend l) := by
  rw [stringBody.eq_def]
  dsimp only
  rw [if_neg h₁, if_neg (Nat.not_lt.mpr h₃), if_pos h₂]
  exact bind_prepend _ l

theorem stringBody_short {e : Char} {l : Letter} (hshort : simpleEscape? e = some l)
    (hunit : e ≠ 'u') :
    stringBody opening (fuel + 1) (.char '\\' :: .char e :: rest) =
      (stringBody opening fuel rest).map (prepend l) := by
  have h₁ : ¬ (Letter.char '\\' = .char '"') := by decide
  have h₂ : ¬ Letter.code (.char '\\') < 32 := by decide
  rw [stringBody.eq_def]
  simp only [h₁, h₂, if_false, ne_eq, not_true_eq_false]
  split
  · next h _ => cases h
  · next h _ => exact absurd (Letter.char.inj (List.cons.inj h).1) hunit
  · next h _ =>
    obtain ⟨rfl, rfl⟩ := List.cons.inj h
    rw [hshort]
    exact bind_prepend _ l

section Units

def unit (n : Nat) : Text := (unitEscape n).map .char

theorem unit_eq {n : Nat} (hn : n < 65536) :
    unit n = .char '\\' :: .char 'u' :: (fourDigits n).map .char := by
  rw [unit, unitEscape_eq hn]
  rfl

def Pairs (rest : Text) : Prop :=
  ∃ m after, m < 65536 ∧ isLowSurrogate m = true ∧ rest = unit m ++ after

def WellEscaped (rest : Text) : Prop :=
  ∀ second, rest = .char '\\' :: .char 'u' :: second →
    ∃ m after, m < 65536 ∧ rest = unit m ++ after ∧ after ≠ []

theorem stringBody_unit {n : Nat} (hn : n < 65536) (hr : rest ≠ []) (hw : WellEscaped rest)
    (hp : isHighSurrogate n = true → ¬ Pairs rest) :
    stringBody opening (fuel + 1) (unit n ++ rest) =
      (stringBody opening fuel rest).map (prepend (.ofCode n)) := by
  have hempty : rest.isEmpty = false := List.isEmpty_eq_false_iff.mpr hr
  rw [unit_eq hn, List.cons_append, List.cons_append, stringBody]
  have h₁ : ¬ (Letter.char '\\' = .char '"') := by decide
  have h₂ : ¬ Letter.code (.char '\\') < 32 := by decide
  simp only [h₁, h₂, if_false, ne_eq, not_true_eq_false, fourHex?_fourDigits hn, hempty,
    Bool.false_eq_true]
  split
  · next hhigh =>
    split
    · next second =>
      obtain ⟨m, after, hm, he, ha⟩ := hw second rfl
      have hlong : ¬ second.length ≤ 4 := by
        have := List.length_pos_iff.mpr ha
        rw [unit_eq hm] at he
        have e := congrArg List.length he
        simp only [fourDigits, List.length_append, List.length_map, List.length_cons,
          List.length_nil] at e
        omega
      obtain rfl : second = (fourDigits m).map .char ++ after := by
        rw [unit_eq hm] at he
        exact (List.cons.inj (List.cons.inj he).2).2
      have hlow : isLowSurrogate m = false := by
        rw [Bool.eq_false_iff]
        exact fun hlow => hp hhigh ⟨m, after, hm, hlow, he⟩
      simp only [hlong, if_false, fourHex?_fourDigits hm, hlow, Bool.false_eq_true]
      exact bind_prepend _ _
    · exact bind_prepend _ _
  · exact bind_prepend _ _

theorem stringBody_pair {hi lo : Nat} (hhi : hi < 1024) (hlo : lo < 1024) (hr : rest ≠ []) :
    stringBody opening (fuel + 1) (unit (0xD800 + hi) ++ (unit (0xDC00 + lo) ++ rest)) =
      (stringBody opening fuel rest).map
        (prepend (.ofCode (Text.joined hi (1024 + lo)))) := by
  have hhigh : isHighSurrogate (0xD800 + hi) = true := by
    unfold isHighSurrogate
    rw [Bool.and_eq_true, decide_eq_true_eq, decide_eq_true_eq]
    omega
  have hlow : isLowSurrogate (0xDC00 + lo) = true := by
    unfold isLowSurrogate
    rw [Bool.and_eq_true, decide_eq_true_eq, decide_eq_true_eq]
    omega
  have hlong (n : Nat) : ¬ ((fourDigits n).map Letter.char ++ rest).length ≤ 4 := by
    have := List.length_pos_iff.mpr hr
    simp only [fourDigits, List.length_append, List.length_map, List.length_cons, List.length_nil]
    omega
  have hlo' : 0xDC00 + lo - 0xD800 = 1024 + lo := by omega
  have h₁ : ¬ (Letter.char '\\' = .char '"') := by decide
  have h₂ : ¬ Letter.code (.char '\\') < 32 := by decide
  rw [unit_eq (by omega), unit_eq (by omega)]
  simp only [List.cons_append]
  rw [stringBody]
  simp only [h₁, h₂, if_false, ne_eq, not_true_eq_false,
    fourHex?_fourDigits (show 0xD800 + hi < 65536 by omega), List.isEmpty_cons, Bool.false_eq_true,
    hhigh, if_true, hlong, fourHex?_fourDigits (show 0xDC00 + lo < 65536 by omega), hlow,
    Nat.add_sub_cancel_left, hlo']
  exact bind_prepend _ _

end Units

inductive Escape : Letter → Text → Prop
  | plain (l : Letter) (hquote : l ≠ '"') (hslash : l ≠ '\\') (hcontrol : 32 ≤ l.code) :
    Escape l [l]
  | short (e : Char) (l : Letter) (hshort : simpleEscape? e = some l) (hunit : e ≠ 'u') :
    Escape l [.char '\\', .char e]
  | unit (l : Letter) (hlow : l.code < 65536) : Escape l (unit l.code)
  | pair (hi lo : Nat) (hhi : hi < 1024) (hlo : lo < 1024) :
    Escape (.ofCode (Text.joined hi (1024 + lo))) (Json.unit (0xD800 + hi) ++ Json.unit (0xDC00 + lo))

theorem escape_escapeLetter (l : Letter) : Escape l ((escapeLetter l).map .char) := by
  cases l with
  | half n => exact .unit (.half n) (show 0xD800 + n.val < 65536 by omega)
  | char c =>
    have hv : c.toNat < 0x110000 := by
      have hv : c.toNat < 0xD800 ∨ 0xDFFF < c.toNat ∧ c.toNat < 0x110000 := c.valid
      omega
    unfold escapeLetter escapeChar
    dsimp only
    split
    · next h => exact h ▸ .short '"' _ rfl (by decide)
    split
    · next h => exact h ▸ .short '\\' _ rfl (by decide)
    split
    · next h => exact h ▸ .short 'n' _ rfl (by decide)
    split
    · next h => exact h ▸ .short 'r' _ rfl (by decide)
    split
    · next h => exact h ▸ .short 't' _ rfl (by decide)
    split
    · next h => exact h ▸ .short 'b' _ rfl (by decide)
    split
    · next h => exact h ▸ .short 'f' _ rfl (by decide)
    split
    · next h₁ h₂ _ _ _ _ _ h =>
      exact .plain (.char c) (fun e => h₁ (Letter.char.inj e)) (fun e => h₂ (Letter.char.inj e)) h.1
    split
    · next h => exact .unit (.char c) h
    · next h =>
      have hjoined : Text.joined ((c.toNat - 0x10000) / 1024)
          (1024 + (c.toNat - 0x10000) % 1024) = c.toNat := by
        unfold Text.joined
        omega
      have e := Escape.pair ((c.toNat - 0x10000) / 1024) ((c.toNat - 0x10000) % 1024) (by omega)
        (Nat.mod_lt _ (by decide))
      rw [hjoined, Letter.ofCode_toNat] at e
      rwa [List.map_append]

def closed (s : Text) (rest : Text) : Text :=
  (s.flatMap escapeLetter).map .char ++ .char '"' :: rest

theorem closed_cons (l : Letter) (s : Text) :
    closed (l :: s) rest = (escapeLetter l).map .char ++ closed s rest := by
  rw [closed, List.flatMap_cons, List.map_append, List.append_assoc]
  rfl

theorem closed_ne_nil (s : Text) : closed s rest ≠ [] :=
  List.append_ne_nil_of_right_ne_nil _ (List.cons_ne_nil _ _)

theorem wellEscaped_closed (s : Text) : WellEscaped (closed s rest) := by
  intro second h
  cases s with
  | nil => cases h
  | cons l s =>
    rw [closed_cons] at h ⊢
    have hs : closed s rest ≠ [] := closed_ne_nil s
    have hl := escape_escapeLetter l
    generalize closed s rest = more, (escapeLetter l).map Letter.char = written at *
    cases hl with
    | plain _ _ hslash => exact absurd (List.cons.inj h).1 hslash
    | short e _ _ hunit => exact absurd (Letter.char.inj (List.cons.inj (List.cons.inj h).2).1) hunit
    | unit _ hlow => exact ⟨_, more, hlow, rfl, hs⟩
    | pair hi lo hhi hlo =>
      exact ⟨_, _, by omega, List.append_assoc _ _ _, List.append_ne_nil_of_right_ne_nil _ hs⟩

theorem unit_append_inj {n m : Nat} {t t' : Text} (hn : n < 65536) (hm : m < 65536)
    (h : unit n ++ t = unit m ++ t') : n = m := by
  rw [unit_eq hn, unit_eq hm] at h
  have h : (fourDigits n).map Letter.char ++ t = (fourDigits m).map Letter.char ++ t' :=
    (List.cons.inj (List.cons.inj h).2).2
  have e := fourHex?_fourDigits hn t
  rw [h, fourHex?_fourDigits hm] at e
  exact (Prod.mk.inj (Option.some.inj e)).1.symm

theorem exists_half_of_pairs {s : Text} (h : Pairs (closed s rest)) :
    ∃ lo s', s = .half lo :: s' ∧ 1024 ≤ lo.val := by
  obtain ⟨m, after, hm, hlow, h⟩ := h
  unfold isLowSurrogate at hlow
  rw [Bool.and_eq_true, decide_eq_true_eq, decide_eq_true_eq] at hlow
  cases s with
  | nil =>
    rw [unit_eq hm] at h
    cases h
  | cons l s =>
    have hl := escape_escapeLetter l
    rw [closed_cons] at h
    generalize (escapeLetter l).map Letter.char = written at *
    cases hl with
    | plain _ _ hslash =>
      rw [unit_eq hm] at h
      exact absurd (List.cons.inj h).1 hslash
    | short e _ _ hunit =>
      rw [unit_eq hm] at h
      exact absurd (Letter.char.inj (List.cons.inj (List.cons.inj h).2).1) hunit
    | unit _ hlt =>
      have e := unit_append_inj hlt hm h
      cases l with
      | char c =>
        have hv : c.toNat < 0xD800 ∨ 0xDFFF < c.toNat ∧ c.toNat < 0x110000 := c.valid
        change c.toNat = m at e
        omega
      | half lo =>
        change 0xD800 + lo.val = m at e
        exact ⟨lo, s, rfl, by omega⟩
    | pair hi lo hhi hlo =>
      rw [List.append_assoc] at h
      have e := unit_append_inj (by omega) hm h
      omega

theorem stringBody_escape {l : Letter} {s : Text} (h : ¬ Text.Joins l s) :
    stringBody opening (fuel + 1) ((escapeLetter l).map .char ++ closed s rest) =
      (stringBody opening fuel (closed s rest)).map (prepend l) := by
  have hs : closed s rest ≠ [] := closed_ne_nil s
  have hl := escape_escapeLetter l
  generalize (escapeLetter l).map Letter.char = written at *
  cases hl with
  | plain _ hquote hslash hcontrol => exact stringBody_plain hquote hslash hcontrol
  | short e _ hshort hunit => exact stringBody_short hshort hunit
  | unit _ hlow =>
    have hpairless : isHighSurrogate l.code = true → ¬ Pairs (closed s rest) := by
      intro hhigh hpairs
      obtain ⟨lo, s', rfl, hlo⟩ := exists_half_of_pairs hpairs
      unfold isHighSurrogate at hhigh
      rw [Bool.and_eq_true, decide_eq_true_eq, decide_eq_true_eq] at hhigh
      cases l with
      | char c =>
        have hv : c.toNat < 0xD800 ∨ 0xDFFF < c.toNat ∧ c.toNat < 0x110000 := c.valid
        change 55296 ≤ c.toNat ∧ c.toNat < 56320 at hhigh
        omega
      | half hi =>
        change 55296 ≤ 0xD800 + hi.val ∧ 0xD800 + hi.val < 56320 at hhigh
        exact h ⟨hi, lo, s', rfl, rfl, by omega, hlo⟩
    rw [stringBody_unit hlow hs (wellEscaped_closed s) hpairless, Letter.ofCode_code]
  | pair hi lo hhi hlo =>
    rw [List.append_assoc]
    exact stringBody_pair hhi hlo hs

theorem unit_half (n : Fin 2048) : (escapeLetter (.half n)).map .char = unit (0xD800 + n) := rfl

theorem stringBody_closed (s : Text) (h : s.length < fuel) :
    stringBody opening fuel (closed s rest) = .ok (s.merged, rest) := by
  obtain ⟨fuel, rfl⟩ := Nat.exists_eq_succ_of_ne_zero (Nat.ne_zero_of_lt h)
  induction s using Text.merged_induction generalizing fuel with
  | nil => rfl
  | pair hi lo s hhi hlo ih =>
    rw [List.length_cons, List.length_cons] at h
    obtain ⟨fuel, rfl⟩ := Nat.exists_eq_succ_of_ne_zero (show fuel ≠ 0 by omega)
    obtain ⟨k, hk⟩ := Nat.exists_eq_add_of_le hlo
    have e : 0xD800 + lo.val = 0xDC00 + k := by omega
    rw [closed_cons, closed_cons, unit_half, unit_half, e,
      stringBody_pair hhi (by omega) (closed_ne_nil s), ih fuel (by omega), ← hk,
      Text.merged_pair hhi hlo]
    rfl
  | cons l s hjoins ih =>
    obtain ⟨fuel, rfl⟩ := Nat.exists_eq_succ_of_ne_zero (show fuel ≠ 0 by
      rw [List.length_cons] at h
      omega)
    rw [closed_cons, stringBody_escape hjoins, ih fuel (Nat.lt_of_succ_lt_succ h),
      Text.merged_cons hjoins]
    rfl

theorem length_le_flatMap_escapeLetter (s : Text) :
    s.length ≤ (s.flatMap escapeLetter).length := by
  induction s with
  | nil => exact Nat.le_refl 0
  | cons l s ih =>
    have hl := escape_escapeLetter l
    have hpos : 0 < (escapeLetter l).length := by
      rw [← List.length_map (f := Letter.char)]
      generalize (escapeLetter l).map Letter.char = written at *
      cases hl <;> simp [unit, unitEscape]
    rw [List.flatMap_cons, List.length_append, List.length_cons]
    omega

theorem ofString_stringText (s rest : Text) :
    Text.ofString (stringText s) ++ rest = .char '"' :: closed s rest := by
  rw [stringText, Text.ofString_ofList, List.map_cons, List.map_append, List.cons_append,
    List.append_assoc]
  rfl

/-- The text of a string reads back as the string with its pairs joined. -/
theorem readString_stringText (s rest : Text) :
    readString (Text.ofString (stringText s) ++ rest) = .ok (s.merged, rest) := by
  have hlength := length_le_flatMap_escapeLetter s
  rw [readString, ofString_stringText, List.drop_one, List.tail_cons, stringBody_closed]
  simp only [closed, List.length_cons, List.length_append, List.length_map]
  omega

theorem escapeLetter_joined {hi lo : Fin 2048} (hhi : hi.val < 1024) (hlo : 1024 ≤ lo.val) :
    escapeLetter (.ofCode (Text.joined hi lo)) =
      escapeLetter (.half hi) ++ escapeLetter (.half lo) := by
  obtain ⟨c, hc, hn⟩ := Text.exists_char_of_joined hhi hlo
  have hne (d : Char) (hd : d.toNat < 0x10000) : c ≠ d := by
    rintro rfl
    omega
  have hfirst : 0xD800 + (c.toNat - 0x10000) / 1024 = (Letter.half hi).code := by
    rw [Letter.code]
    omega
  have hsecond : 0xDC00 + (c.toNat - 0x10000) % 1024 = (Letter.half lo).code := by
    rw [Letter.code]
    omega
  rw [hc]
  unfold escapeLetter escapeChar
  dsimp only
  rw [if_neg (hne _ (by decide)), if_neg (hne _ (by decide)), if_neg (hne _ (by decide)),
    if_neg (hne _ (by decide)), if_neg (hne _ (by decide)), if_neg (hne _ (by decide)),
    if_neg (hne _ (by decide)), if_neg (by omega), if_neg (by omega), hfirst, hsecond]

theorem escaped_merged (s : Text) : s.merged.flatMap escapeLetter = s.flatMap escapeLetter := by
  induction s using Text.merged_induction with
  | nil => rfl
  | pair hi lo s hhi hlo ih =>
    rw [Text.merged_pair hhi hlo, List.flatMap_cons, List.flatMap_cons, List.flatMap_cons, ih,
      escapeLetter_joined hhi hlo, List.append_assoc]
  | cons l s hjoins ih =>
    rw [Text.merged_cons hjoins, List.flatMap_cons, List.flatMap_cons, ih]

theorem stringText_merged (s : Text) : stringText s.merged = stringText s := by
  rw [stringText, escaped_merged, stringText]

end AssertionGrant.Json
