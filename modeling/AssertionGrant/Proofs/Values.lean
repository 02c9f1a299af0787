import AssertionGrant.Proofs.Numbers
import AssertionGrant.Proofs.Strings

/-! The text of a JSON value reads back as the value with the pairs of halves in its texts joined, if
the value is within the limits. Each container costs the reader no more steps than twice the length
of its text. -/

namespace AssertionGrant

def Number.Proper : Number → Prop
  | .int _ => True
  | .float x => x.Proper

namespace Json

mutual

def Proper : Json → Prop
  | .num n => n.Proper
  | .arr items => AllProper items
  | .obj fields => (fields.map (·.1)).Nodup ∧ FieldsProper fields
  | _ => True

def AllProper : List Json → Prop
  | [] => True
  | v :: rest => Proper v ∧ AllProper rest

def FieldsProper : List (Text × Json) → Prop
  | [] => True
  | (_, v) :: rest => Proper v ∧ FieldsProper rest

end

theorem allProper_texts (texts : List Text) : AllProper (texts.map .str) := by
  induction texts with
  | nil => trivial
  | cons text texts ih => exact ⟨trivial, ih⟩

mutual

/-- A value with the pairs of halves in its texts joined. Names that become one are one field, with
the value of the last of them. -/
def merged : Json → Json
  | .str s => .str s.merged
  | .arr items => .arr (mergedItems items)
  | .obj fields => .obj (mergedFields [] fields)
  | v => v

def mergedItems : List Json → List Json
  | [] => []
  | v :: rest => merged v :: mergedItems rest

def mergedFields (sofar : Fields) : List (Text × Json) → Fields
  | [] => sofar
  | (name, v) :: rest => mergedFields (sofar.set name.merged (merged v)) rest

end

structure Style.Separating (style : Style) : Prop where
  unsorted : style.sorted = false
  comma : ∃ blanks, Text.ofString style.comma = .char ',' :: blanks ∧ ∀ l ∈ blanks, isSpace l = true
  colon : ∃ blanks, Text.ofString style.colon = .char ':' :: blanks ∧ ∀ l ∈ blanks, isSpace l = true

theorem separating_spaced : spaced.Separating := by
  refine ⟨rfl, ⟨[.char ' '], rfl, ?_⟩, ⟨[.char ' '], rfl, ?_⟩⟩
  all_goals
    intro l hl
    rw [List.mem_singleton.mp hl]
    rfl

variable {style : Style} {fuel depth : Nat} {rest t blanks : Text}

section Heads

theorem skipSpaces_append (h : ∀ l ∈ blanks, isSpace l = true) :
    skipSpaces (blanks ++ t) = skipSpaces t := by
  induction blanks with
  | nil => rfl
  | cons l blanks ih =>
    unfold skipSpaces at ih ⊢
    rw [List.cons_append, List.dropWhile_cons, if_pos (h l List.mem_cons_self)]
    exact ih fun l hl => h l (List.mem_cons_of_mem _ hl)

def Begins (t : Text) : Prop :=
  ∃ l rest, t = l :: rest ∧ isSpace l = false ∧ l ≠ .char ']' ∧ l ≠ .char '\x7d'

theorem Begins.skipSpaces (h : Begins t) : skipSpaces t = t := by
  obtain ⟨l, rest, rfl, hl, -, -⟩ := h
  unfold Json.skipSpaces
  rw [List.dropWhile_cons, hl]
  rfl

theorem Begins.ne_nil (h : Begins t) : t ≠ [] := by
  obtain ⟨l, rest, rfl, -⟩ := h
  exact List.cons_ne_nil l rest

theorem begins_of_readValue {p : Json × Text} (h : readValue fuel depth t = .ok p) :
    Begins t := by
  cases fuel with
  | zero => cases h
  | succ fuel =>
    cases t with
    | nil => cases h
    | cons l t =>
      refine ⟨l, t, rfl, ?_, ?_, ?_⟩
      · by_contra hl
        have hl : isSpace l = true := by simpa using hl
        unfold isSpace at hl
        simp only [Bool.or_eq_true, decide_eq_true_eq] at hl
        rcases hl with ((rfl | rfl) | rfl) | rfl <;> cases h
      · rintro rfl
        cases h
      · rintro rfl
        cases h

end Heads

section Steps

theorem readValue_of_readScalar {p : Json × Text} (h : readScalar t = .ok p) :
    readValue (fuel + 1) depth t = .ok p := by
  unfold readValue
  split
  · cases h
  · cases h
  · cases h
  · exact h

theorem readValue_stringText (s : Text) :
    readValue (fuel + 1) depth (Text.ofString (stringText s) ++ rest) = .ok (.str s.merged, rest) := by
  have e := readString_stringText s rest
  have hhead : ∃ t, Text.ofString (stringText s) ++ rest = .char '"' :: t := by
    exact ⟨_, ofString_stringText _ _⟩
  obtain ⟨t, hcs⟩ := hhead
  rw [hcs] at e ⊢
  rw [readValue, e]
  rfl

theorem readValue_items {items : List Json} (hb : Begins t)
    (h : readItems fuel depth t = .ok (items, rest)) :
    readValue (fuel + 1) (depth + 1) (.char '[' :: t) = .ok (.arr items, rest) := by
  rw [readValue, hb.skipSpaces]
  obtain ⟨c, t, rfl, -, hc, -⟩ := hb
  dsimp only
  split
  · next e => exact absurd (List.cons.inj e).1 hc
  · rw [h]
    rfl

theorem readValue_fields {fields : Fields} (hb : Begins t)
    (h : readFields fuel depth [] t = .ok (fields, rest)) :
    readValue (fuel + 1) (depth + 1) (.char '\x7b' :: t) = .ok (.obj fields, rest) := by
  rw [readValue, hb.skipSpaces]
  obtain ⟨c, t, rfl, -, -, hc⟩ := hb
  dsimp only
  split
  · next e => exact absurd (List.cons.inj e).1 hc
  · rw [h]
    rfl

theorem readItems_last {v : Json} (h : readValue fuel depth t = .ok (v, .char ']' :: rest)) :
    readItems (fuel + 1) depth t = .ok ([v], rest) := by
  rw [readItems, h]
  rfl

theorem readItems_next {v : Json} {items : List Json} {more : Text}
    (h : readValue fuel depth t = .ok (v, .char ',' :: (blanks ++ more)))
    (hblanks : ∀ l ∈ blanks, isSpace l = true) (hb : Begins more)
    (hm : readItems fuel depth more = .ok (items, rest)) :
    readItems (fuel + 1) depth t = .ok (v :: items, rest) := by
  rw [readItems, h]
  change (readItems fuel depth (skipSpaces (blanks ++ more)) >>= _) = _
  rw [skipSpaces_append hblanks, hb.skipSpaces, hm]
  rfl

theorem readFields_eq {sofar : Fields} (name : Text) {more : Text}
    (hblanks : ∀ l ∈ blanks, isSpace l = true) (hb : Begins more) :
    readFields (fuel + 1) depth sofar
      (Text.ofString (stringText name) ++ .char ':' :: (blanks ++ more)) =
      readValue fuel depth more >>= fun (v, rest) =>
        match skipSpaces rest with
        | .char '\x7d' :: rest => pure (sofar.set name.merged v, rest)
        | .char ',' :: rest => readFields fuel depth (sofar.set name.merged v) (skipSpaces rest)
        | rest => stop .comma rest := by
  have e := readString_stringText name (.char ':' :: (blanks ++ more))
  have hhead :
      ∃ t, Text.ofString (stringText name) ++ .char ':' :: (blanks ++ more) = .char '"' :: t :=
    ⟨_, ofString_stringText _ _⟩
  obtain ⟨t, hcs⟩ := hhead
  rw [hcs] at e ⊢
  rw [readFields, e]
  have hmore : skipSpaces (blanks ++ more) = more := by
    rw [skipSpaces_append hblanks, hb.skipSpaces]
  change (readValue fuel depth (skipSpaces (blanks ++ more)) >>= _) = _
  exact congrArg (· >>= _) (congrArg (readValue fuel depth) hmore)

theorem readFields_last {sofar : Fields} {name : Text} {v : Json} {more : Text}
    (hblanks : ∀ l ∈ blanks, isSpace l = true)
    (h : readValue fuel depth more = .ok (v, .char '\x7d' :: rest)) :
    readFields (fuel + 1) depth sofar
      (Text.ofString (stringText name) ++ .char ':' :: (blanks ++ more)) =
      .ok (sofar.set name.merged v, rest) := by
  rw [readFields_eq name hblanks (begins_of_readValue h), h]
  rfl

theorem readFields_next {sofar fields : Fields} {name : Text} {v : Json}
    {more gap next : Text} (hblanks : ∀ l ∈ blanks, isSpace l = true)
    (h : readValue fuel depth more = .ok (v, .char ',' :: (gap ++ next)))
    (hgap : ∀ l ∈ gap, isSpace l = true) (hb : Begins next)
    (hm : readFields fuel depth (sofar.set name.merged v) next = .ok (fields, rest)) :
    readFields (fuel + 1) depth sofar
      (Text.ofString (stringText name) ++ .char ':' :: (blanks ++ more)) =
      .ok (fields, rest) := by
  rw [readFields_eq name hblanks (begins_of_readValue h), h]
  change readFields fuel depth (sofar.set name.merged v) (skipSpaces (gap ++ next)) = _
  rw [skipSpaces_append hgap, hb.skipSpaces, hm]

theorem begins_of_readItems {p : List Json × Text} (h : readItems fuel depth t = .ok p) :
    Begins t := by
  cases fuel with
  | zero => cases h
  | succ fuel =>
    rw [readItems] at h
    cases hv : readValue fuel depth t with
    | ok q => exact begins_of_readValue hv
    | error e =>
      rw [hv] at h
      cases h

theorem begins_stringText (s : Text) : Begins (Text.ofString (stringText s) ++ rest) := by
  exact ⟨_, _, ofString_stringText s rest, rfl, by decide, by decide⟩

end Steps

def fieldText (style : Style) (f : Text × String) : String :=
  stringText f.1 ++ style.colon ++ f.2

section RoundTrip

theorem text_obj (hs : style.Separating) (fields : Fields) :
    text style (.obj fields) =
      "\x7b" ++ style.comma.intercalate ((fieldTexts style fields).map (fieldText style)) ++
        "\x7d" := by
  unfold text
  dsimp only
  rw [hs.unsorted]
  rfl

theorem length_text_arr (items : List Json) :
    (text style (.arr items)).length =
      (style.comma.intercalate (itemTexts style items)).length + 2 := by
  rw [text, String.length_append, String.length_append, Nat.add_right_comm, Nat.add_comm]
  rfl

theorem length_text_obj (hs : style.Separating) (fields : Fields) :
    (text style (.obj fields)).length =
      (style.comma.intercalate ((fieldTexts style fields).map (fieldText style))).length + 2 := by
  rw [text_obj hs, String.length_append, String.length_append, Nat.add_right_comm, Nat.add_comm]
  rfl

theorem begins_fieldTexts {fields : Fields} (hne : fields ≠ []) :
    Begins (Text.ofString (style.comma.intercalate ((fieldTexts style fields).map (fieldText style))) ++
      rest) := by
  obtain ⟨⟨name, v⟩, fields, rfl⟩ := List.exists_cons_of_ne_nil hne
  rw [fieldTexts, List.map_cons]
  unfold fieldText
  rw [String.append_assoc, String.intercalate_cons_append, Text.ofString_append, List.append_assoc]
  exact begins_stringText name

theorem exists_fuel {s : String} (hs : Text.ofString s ≠ []) (hf : 2 * s.length ≤ fuel) :
    ∃ k, fuel = k + 1 := by
  have hpos := List.length_pos_iff.mpr hs
  rw [Text.length_ofString] at hpos
  exact Nat.exists_eq_succ_of_ne_zero (by omega)

theorem readValue_numberText {n : Number} (hp : n.Proper)
    (hw : unwritable? depth (.num n) = none) (hf : 2 * (numberText n).length ≤ fuel)
    (hr : Ended rest) :
    readValue fuel depth (Text.ofString (numberText n) ++ rest) = .ok (.num n, rest) := by
  have hread {rest : Text} (hr : Ended rest) :
      readScalar (Text.ofString (numberText n) ++ rest) = .ok (.num n, rest) := by
    cases n with
    | int z =>
      refine readScalar_int ?_ hr
      by_contra hz
      rw [unwritable?, if_pos (by simpa using hz)] at hw
      cases hw
    | float x => exact readScalar_float hp hr
  have hne : Text.ofString (numberText n) ≠ [] := by
    intro h0
    have hended : Ended [] := by rintro l ⟨⟩
    have e := hread hended
    rw [h0] at e
    cases e
  obtain ⟨fuel, rfl⟩ := exists_fuel hne hf
  exact readValue_of_readScalar (hread hr)

mutual

/-- The text of a value reads back as the value. -/
theorem readValue_text (hs : style.Separating) (v : Json) {fuel depth : Nat} {rest : Text}
    (hp : v.Proper) (hw : v.unwritable? depth = none) (hf : 2 * (text style v).length ≤ fuel)
    (hr : Ended rest) :
    readValue fuel depth (Text.ofString (text style v) ++ rest) = .ok (v.merged, rest) := by
  cases v with
  | null =>
    rw [text] at hf ⊢
    obtain ⟨fuel, rfl⟩ := exists_fuel (by decide) hf
    rfl
  | bool b =>
    rw [text] at hf ⊢
    obtain ⟨fuel, rfl⟩ := exists_fuel (by cases b <;> decide) hf
    cases b <;> rfl
  | num n =>
    rw [text] at hf ⊢
    exact readValue_numberText hp hw hf hr
  | str s =>
    rw [text] at hf ⊢
    have hne : Text.ofString (stringText s) ≠ [] :=
      List.append_nil (Text.ofString (stringText s)) ▸ (begins_stringText s).ne_nil
    obtain ⟨fuel, rfl⟩ := exists_fuel hne hf
    exact readValue_stringText s
  | arr items =>
    cases depth with
    | zero => cases hw
    | succ depth =>
      rw [unwritable?] at hw
      rw [length_text_arr] at hf
      obtain ⟨fuel, rfl⟩ := Nat.exists_eq_succ_of_ne_zero (n := fuel) (by omega)
      rw [text, Text.ofString_append, Text.ofString_append, List.append_assoc, List.append_assoc]
      by_cases hne : items = []
      · subst hne
        rfl
      · have e : readItems fuel depth _ = .ok (mergedItems items, rest) :=
          readItems_texts hs items hne hp hw (by omega)
        exact readValue_items (begins_of_readItems e) e
  | obj fields =>
    cases depth with
    | zero => cases hw
    | succ depth =>
      rw [unwritable?] at hw
      rw [length_text_obj hs] at hf
      obtain ⟨fuel, rfl⟩ := Nat.exists_eq_succ_of_ne_zero (n := fuel) (by omega)
      rw [text_obj hs, Text.ofString_append, Text.ofString_append, List.append_assoc,
        List.append_assoc]
      by_cases hne : fields = []
      · subst hne
        rfl
      · have e : readFields fuel depth [] _ = .ok (mergedFields [] fields, rest) :=
          readFields_texts hs fields hne hp.2 hw (by omega)
        exact readValue_fields (begins_fieldTexts hne) e

theorem readItems_texts (hs : style.Separating) (items : List Json) {fuel depth : Nat}
    {rest : Text} (hne : items ≠ []) (hp : AllProper items)
    (hw : firstUnwritable? depth items = none)
    (hf : 2 * (style.comma.intercalate (itemTexts style items)).length + 1 ≤ fuel) :
    readItems fuel depth
      (Text.ofString (style.comma.intercalate (itemTexts style items)) ++ .char ']' :: rest) =
        .ok (mergedItems items, rest) := by
  cases items with
  | nil => exact absurd rfl hne
  | cons v items =>
    obtain ⟨fuel, rfl⟩ := Nat.exists_eq_succ_of_ne_zero (n := fuel) (by omega)
    rw [firstUnwritable?, Option.or_eq_none_iff] at hw
    rw [itemTexts] at hf ⊢
    by_cases hi : items = []
    · subst hi
      rw [itemTexts, String.intercalate_singleton] at hf ⊢
      exact readItems_last (readValue_text hs v hp.1 hw.1 (by omega) (by rintro l ⟨⟩; simp))
    · have hne' : itemTexts style items ≠ [] := by
        obtain ⟨w, ws, rfl⟩ := List.exists_cons_of_ne_nil hi
        rw [itemTexts]
        exact List.cons_ne_nil _ _
      rw [String.intercalate_cons_of_ne_nil hne', String.length_append, String.length_append] at hf
      obtain ⟨blanks, hcomma, hblanks⟩ := hs.comma
      have hlen : style.comma.length = blanks.length + 1 := by
        rw [← Text.length_ofString, hcomma]
        rfl
      rw [String.intercalate_cons_of_ne_nil hne', Text.ofString_append, Text.ofString_append,
        hcomma, List.append_assoc, List.append_assoc]
      -- The comma after the item pays for the fuel that the item's call takes from its followers.
      have hm : readItems fuel depth _ = .ok (mergedItems items, rest) :=
        readItems_texts hs items hi hp.2 hw.2 (by omega)
      refine readItems_next ?_ hblanks (begins_of_readItems hm) hm
      exact readValue_text hs v hp.1 hw.1 (by omega) (by rintro l ⟨⟩; simp)

theorem readFields_texts (hs : style.Separating) (fields : List (Text × Json)) {sofar : Fields}
    {fuel depth : Nat} {rest : Text} (hne : fields ≠ []) (hp : FieldsProper fields)
    (hw : firstUnwritableField? depth fields = none)
    (hf : 2 * (style.comma.intercalate ((fieldTexts style fields).map (fieldText style))).length + 1
      ≤ fuel) :
    readFields fuel depth sofar
      (Text.ofString (style.comma.intercalate ((fieldTexts style fields).map (fieldText style))) ++
        .char '\x7d' :: rest) = .ok (mergedFields sofar fields, rest) := by
  cases fields with
  | nil => exact absurd rfl hne
  | cons f fields =>
    obtain ⟨name, v⟩ := f
    obtain ⟨fuel, rfl⟩ := Nat.exists_eq_succ_of_ne_zero (n := fuel) (by omega)
    rw [firstUnwritableField?, Option.or_eq_none_iff] at hw
    obtain ⟨blanks, hcolon, hblanks⟩ := hs.colon
    rw [fieldTexts, List.map_cons] at hf ⊢
    by_cases hi : fields = []
    · subst hi
      rw [fieldTexts, List.map_nil, String.intercalate_singleton, fieldText] at hf ⊢
      simp only [String.length_append] at hf
      simp only [Text.ofString_append, hcolon, List.append_assoc, List.cons_append]
      refine readFields_last hblanks ?_
      exact readValue_text hs v hp.1 hw.1 (by omega) (by rintro l ⟨⟩; simp)
    · have hne' : (fieldTexts style fields).map (fieldText style) ≠ [] := by
        obtain ⟨⟨n, w⟩, ws, rfl⟩ := List.exists_cons_of_ne_nil hi
        rw [fieldTexts, List.map_cons]
        exact List.cons_ne_nil _ _
      rw [String.intercalate_cons_of_ne_nil hne', fieldText] at hf ⊢
      simp only [String.length_append] at hf
      obtain ⟨gap, hcomma, hgap⟩ := hs.comma
      have hlen : style.comma.length = gap.length + 1 := by
        rw [← Text.length_ofString, hcomma]
        rfl
      simp only [Text.ofString_append, hcolon, hcomma, List.append_assoc, List.cons_append]
      refine readFields_next hblanks (readValue_text hs v hp.1 hw.1 (by omega) ?_) hgap
        (begins_fieldTexts hi) ?_
      · rintro l ⟨⟩
        simp
      · exact readFields_texts hs fields hi hp.2 hw.2 (by omega)

end

end RoundTrip

end Json
end AssertionGrant
