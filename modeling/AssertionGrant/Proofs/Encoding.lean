import AssertionGrant.Proofs.Values
import AssertionGrant.Store.Cache

/-! The text of a JSON value is ASCII, which is its own encoding, so the value is read back from the
bytes as it is from the text, with the pairs of halves in it joined. -/

namespace AssertionGrant

def Ascii (cs : List Char) : Prop := ∀ c ∈ cs, 0 < c.toNat ∧ c.toNat < 128

namespace Ascii

instance (cs : List Char) : Decidable (Ascii cs) :=
  List.decidableBAll _ cs

variable {cs ds : List Char} {c : Char} {s t : String}

theorem nil : Ascii [] := nofun

theorem cons (hc : 0 < c.toNat ∧ c.toNat < 128) (h : Ascii cs) : Ascii (c :: cs) :=
  List.forall_mem_cons.mpr ⟨hc, h⟩

theorem append (h : Ascii cs) (h' : Ascii ds) : Ascii (cs ++ ds) :=
  List.forall_mem_append.mpr ⟨h, h'⟩

theorem ofList (h : Ascii cs) : Ascii (String.ofList cs).toList := by
  rwa [String.toList_ofList]

theorem text_append (h : Ascii s.toList) (h' : Ascii t.toList) : Ascii (s ++ t).toList := by
  rw [String.toList_append]
  exact h.append h'

theorem of_toDigits (n : Nat) : Ascii (Nat.toDigits 10 n) := by
  intro c hc
  have hd : Json.isAsciiDigit (.char c) = true :=
    Numeral.isAsciiDigit_of_mem_digits (List.mem_map_of_mem hc)
  unfold Json.isAsciiDigit at hd
  obtain ⟨h₁, h₂⟩ := Bool.and_eq_true_iff.mp hd
  have h₁ : 48 ≤ c.toNat := of_decide_eq_true h₁
  have h₂ : c.toNat ≤ 57 := of_decide_eq_true h₂
  omega

theorem zeros (n : Nat) : Ascii (List.replicate n '0') := by
  intro c hc
  rw [List.eq_of_mem_replicate hc]
  decide

end Ascii

namespace Json

theorem ascii_fourDigits (n : Nat) : Ascii (fourDigits n) := by
  have hdigit : ∀ d < 16, 0 < (Nat.digitChar d).toNat ∧ (Nat.digitChar d).toNat < 128 := by decide
  intro c hc
  obtain ⟨d, hd, rfl⟩ := List.mem_map.mp hc
  refine hdigit d ?_
  simp only [List.mem_cons, List.not_mem_nil, or_false] at hd
  omega

theorem ascii_unitEscape {n : Nat} (hn : n < 65536) : Ascii (unitEscape n) := by
  rw [unitEscape_eq hn]
  exact .cons (by decide) (.cons (by decide) (ascii_fourDigits n))

theorem ascii_escapeChar (c : Char) : Ascii (escapeChar c) := by
  have hshort (d : Char) (hd : 0 < d.toNat ∧ d.toNat < 128) : Ascii ['\\', d] :=
    .cons (by decide) (.cons hd .nil)
  have hv : c.toNat < 0x110000 := by
    have hv : c.toNat < 0xD800 ∨ 0xDFFF < c.toNat ∧ c.toNat < 0x110000 := c.valid
    omega
  unfold escapeChar
  dsimp only
  repeat' split
  all_goals first
    | exact hshort _ (by decide)
    | next h => exact .cons (by omega) .nil
    | next h => exact ascii_unitEscape h
    | exact .append (ascii_unitEscape (by omega)) (ascii_unitEscape (by omega))

theorem ascii_escapeLetter (l : Letter) : Ascii (escapeLetter l) := by
  cases l with
  | char c => exact ascii_escapeChar c
  | half n => exact ascii_unitEscape (show 0xD800 + n.val < 65536 by omega)

theorem ascii_stringText (s : Text) : Ascii (stringText s).toList := by
  unfold stringText
  rw [String.toList_ofList]
  refine .cons (by decide) (.append ?_ (.cons (by decide) .nil))
  intro d hd
  obtain ⟨l, -, hl⟩ := List.mem_flatMap.mp hd
  exact ascii_escapeLetter l d hl

theorem ascii_decimalDigits (u : Nat) : Ascii (Binary64.decimalDigits u).1 := by
  intro c hc
  unfold Binary64.decimalDigits at hc
  exact Ascii.of_toDigits _ c
    (List.mem_reverse.mp ((List.dropWhile_sublist _).subset (List.mem_reverse.mp hc)))

theorem ascii_toString (n : Nat) : Ascii (toString n).toList := by
  have htext : (toString n).toList = Nat.toDigits 10 n := Nat.toList_repr
  rw [htext]
  exact .of_toDigits n

theorem ascii_magnitudeText (u : Nat) : Ascii (Binary64.magnitudeText u).toList := by
  have hcs := ascii_decimalDigits u
  have hpoint : Ascii ".".toList := by decide
  unfold Binary64.magnitudeText
  split
  · decide
  generalize Binary64.decimalDigits u = p at *
  obtain ⟨cs, point⟩ := p
  dsimp only at *
  split
  · split
    · exact .text_append (by decide) (.ofList (.append (.zeros _) hcs))
    split
    · exact .text_append (.ofList (.append hcs (.zeros _))) (by decide)
    · refine .text_append (.text_append (.ofList fun c hc => ?_) hpoint) (.ofList fun c hc => ?_)
      · exact hcs c (List.mem_of_mem_take hc)
      · exact hcs c (List.mem_of_mem_drop hc)
  · refine .text_append (.text_append (.text_append ?_ (by decide)) ?_) ?_
    · split
      · decide
      · rwa [String.toList_singleton]
      · next c rest _ =>
        have hc := List.forall_mem_cons.mp hcs
        refine .text_append (.text_append ?_ hpoint) (.ofList hc.2)
        rw [String.toList_singleton]
        exact .cons hc.1 .nil
    · split <;> decide
    · split
      · exact .text_append (by decide) (ascii_toString _)
      · exact ascii_toString _

theorem ascii_numberText (n : Number) : Ascii (numberText n).toList := by
  unfold numberText
  cases n with
  | int z =>
    cases z with
    | ofNat n => exact ascii_toString n
    | negSucc n => exact .text_append (by decide) (ascii_toString (n + 1))
  | float x =>
    cases x with
    | nan => decide
    | infinite negative => cases negative <;> decide
    | finite negative u =>
      refine .text_append ?_ (ascii_magnitudeText u)
      cases negative <;> decide

theorem ascii_intercalate {comma : String} (hc : Ascii comma.toList) {texts : List String}
    (h : ∀ t ∈ texts, Ascii t.toList) : Ascii (comma.intercalate texts).toList := by
  induction texts with
  | nil =>
    rw [String.intercalate_nil]
    decide
  | cons t texts ih =>
    have ht := List.forall_mem_cons.mp h
    by_cases hne : texts = []
    · subst hne
      rw [String.intercalate_singleton]
      exact ht.1
    · rw [String.intercalate_cons_of_ne_nil hne]
      exact .text_append (.text_append ht.1 hc) (ih ht.2)

def Style.IsAscii (style : Style) : Prop := Ascii style.comma.toList ∧ Ascii style.colon.toList

theorem isAscii_spaced : spaced.IsAscii := by
  constructor <;> decide

mutual

theorem ascii_text {style : Style} (hs : style.IsAscii) (v : Json) :
    Ascii (text style v).toList := by
  cases v with
  | null =>
    rw [text]
    decide
  | bool b =>
    rw [text]
    cases b <;> decide
  | num n =>
    rw [text]
    exact ascii_numberText n
  | str s =>
    rw [text]
    exact ascii_stringText s
  | arr items =>
    rw [text]
    refine .text_append (.text_append (by decide) ?_) (by decide)
    exact ascii_intercalate hs.1 (ascii_itemTexts hs items)
  | obj fields =>
    have hfields := ascii_fieldTexts hs fields
    rw [text]
    refine .text_append (.text_append (by decide) (ascii_intercalate hs.1 ?_)) (by decide)
    intro t ht
    obtain ⟨f, hf, rfl⟩ := List.mem_map.mp ht
    refine .text_append (.text_append (ascii_stringText f.1) hs.2) (hfields f ?_)
    split at hf
    · exact List.mem_mergeSort.mp hf
    · exact hf

theorem ascii_itemTexts {style : Style} (hs : style.IsAscii) (items : List Json) :
    ∀ t ∈ itemTexts style items, Ascii t.toList := by
  cases items with
  | nil =>
    rw [itemTexts]
    nofun
  | cons v items =>
    rw [itemTexts]
    exact List.forall_mem_cons.mpr ⟨ascii_text hs v, ascii_itemTexts hs items⟩

theorem ascii_fieldTexts {style : Style} (hs : style.IsAscii) (fields : List (Text × Json)) :
    ∀ f ∈ fieldTexts style fields, Ascii f.2.toList := by
  cases fields with
  | nil =>
    rw [fieldTexts]
    nofun
  | cons f fields =>
    obtain ⟨name, v⟩ := f
    rw [fieldTexts]
    exact List.forall_mem_cons.mpr ⟨ascii_text hs v, ascii_fieldTexts hs fields⟩

end

end Json

namespace Utf

section Bytes

theorem toList_loop_eq (bs : ByteArray) (i : Nat) (r : List UInt8) :
    ByteArray.toList.loop bs i r = r.reverse ++ bs.data.toList.drop i := by
  induction hk : bs.size - i generalizing i r with
  | zero =>
    rw [ByteArray.toList.loop, if_neg (by omega), List.drop_eq_nil_of_le, List.append_nil]
    change bs.size ≤ i
    omega
  | succ k ih =>
    have hi : i < bs.data.toList.length := by
      change i < bs.size
      omega
    have hget : bs.get! i = bs.data.toList[i] := getElem!_pos bs.data i hi
    rw [ByteArray.toList.loop, if_pos (by omega), ih (i + 1) _ (by omega), List.reverse_cons,
      List.append_assoc, List.drop_eq_getElem_cons hi, hget, List.singleton_append]

theorem encode_ofList (cs : List Char) :
    encode (String.ofList cs) = cs.flatMap String.utf8EncodeChar := by
  refine (toList_loop_eq _ 0 []).trans ?_
  change (List.toByteArray _).data.toList = _
  rw [List.toList_data_toByteArray]

theorem toNat_ofNat {n : Nat} (h : n < 256) : (UInt8.ofNat n).toNat = n :=
  UInt8.toNat_ofNat_of_lt' h

section Continuations

variable {n m : Nat}

theorem isContinuation_ofNat (h : n < 64) : isContinuation (UInt8.ofNat (n + 128)) = true := by
  unfold isContinuation
  rw [Bool.and_eq_true, decide_eq_true_eq, decide_eq_true_eq, UInt8.le_iff_toNat_le,
    UInt8.lt_iff_toNat_lt, toNat_ofNat (by omega)]
  exact ⟨Nat.le_add_left .., Nat.add_lt_add_right h 128⟩

theorem low_ofNat (h : n < 64) : low (UInt8.ofNat (n + 128)) = n := by
  unfold low
  rw [toNat_ofNat (by omega)]
  omega

theorem ofNat_lt_iff (h : n < 256) (hm : m < 256) : UInt8.ofNat n < UInt8.ofNat m ↔ n < m := by
  rw [UInt8.lt_iff_toNat_lt, toNat_ofNat h, toNat_ofNat hm]

theorem ofNat_le_iff (h : n < 256) (hm : m < 256) : UInt8.ofNat n ≤ UInt8.ofNat m ↔ n ≤ m := by
  rw [UInt8.le_iff_toNat_le, toNat_ofNat h, toNat_ofNat hm]

/-- A second octet is refused if it does not continue, and for two of the first octets if it is on the
wrong side of a bound. -/
theorem second_passes {p q : Prop} [Decidable p] [Decidable q] (hn : n < 64) (hm : m < 256)
    (hp : p → m ≤ n + 128) (hq : q → n + 128 < m) :
    (!isContinuation (UInt8.ofNat (n + 128)) || (p && UInt8.ofNat (n + 128) < UInt8.ofNat m) ||
      (q && UInt8.ofNat m ≤ UInt8.ofNat (n + 128))) = false := by
  rw [isContinuation_ofNat hn]
  simp only [Bool.not_true, Bool.false_or, Bool.or_eq_false_iff, Bool.and_eq_false_imp,
    decide_eq_true_eq, decide_eq_false_iff_not]
  rw [ofNat_lt_iff (by omega) hm, ofNat_le_iff hm (by omega)]
  exact ⟨fun h => (hp h).not_gt, fun h => (hq h).not_ge⟩

end Continuations

section Octets

variable {n : Nat} (rest : Bytes)

theorem readUtf8_one (h : n < 0x80) : readUtf8 (UInt8.ofNat n :: rest) = .ok (Char.ofNat n, 1) := by
  simp only [readUtf8]
  rw [toNat_ofNat (by omega), if_pos h]

theorem readUtf8_two (hlow : 0x80 ≤ n) (h : n < 0x800) :
    readUtf8 (UInt8.ofNat (n / 64 % 32 + 192) :: UInt8.ofNat (n % 64 + 128) :: rest) =
      .ok (Char.ofNat n, 2) := by
  have hjoined : (n / 64 % 32 + 192 - 0xC0) * 64 + n % 64 = n := by omega
  simp only [readUtf8]
  rw [toNat_ofNat (by omega), if_neg (by omega), if_neg (by omega), if_pos (by omega),
    if_pos (isContinuation_ofNat (by omega)), low_ofNat (by omega), hjoined]

theorem readUtf8_three (hlow : 0x800 ≤ n) (h : n < 0x10000) (hwhole : n < 0xD800 ∨ 0xDFFF < n) :
    readUtf8 (UInt8.ofNat (n / 4096 % 16 + 224) :: UInt8.ofNat (n / 64 % 64 + 128) ::
      UInt8.ofNat (n % 64 + 128) :: rest) = .ok (Char.ofNat n, 3) := by
  have hsecond := second_passes (n := n / 64 % 64) (m := 0xA0) (p := n / 4096 % 16 + 224 = 0xE0)
    (q := n / 4096 % 16 + 224 = 0xED) (by omega) (by omega) (by omega) (by omega)
  have hjoined : (n / 4096 % 16 + 224 - 0xE0) * 4096 + n / 64 % 64 * 64 + n % 64 = n := by omega
  simp only [readUtf8]
  rw [toNat_ofNat (by omega), if_neg (by omega), if_neg (by omega), if_neg (by omega),
    if_pos (by omega), if_neg (Bool.not_eq_true _ ▸ hsecond),
    if_pos (isContinuation_ofNat (by omega)), low_ofNat (by omega), low_ofNat (by omega), hjoined]

theorem readUtf8_four (hlow : 0x10000 ≤ n) (h : n < 0x110000) :
    readUtf8 (UInt8.ofNat (n / 262144 % 8 + 240) :: UInt8.ofNat (n / 4096 % 64 + 128) ::
      UInt8.ofNat (n / 64 % 64 + 128) :: UInt8.ofNat (n % 64 + 128) :: rest) =
        .ok (Char.ofNat n, 4) := by
  have hsecond := second_passes (n := n / 4096 % 64) (m := 0x90) (p := n / 262144 % 8 + 240 = 0xF0)
    (q := n / 262144 % 8 + 240 = 0xF4) (by omega) (by omega) (by omega) (by omega)
  have hthird : (!isContinuation (UInt8.ofNat (n / 64 % 64 + 128))) = false := by
    rw [isContinuation_ofNat (by omega)]
    rfl
  have hjoined : (n / 262144 % 8 + 240 - 0xF0) * 262144 + n / 4096 % 64 * 4096 + n / 64 % 64 * 64 +
      n % 64 = n := by omega
  simp only [readUtf8]
  rw [toNat_ofNat (by omega), if_neg (by omega), if_neg (by omega), if_neg (by omega),
    if_neg (by omega), if_neg (Bool.not_eq_true _ ▸ hsecond), hthird, if_neg Bool.false_ne_true,
    if_pos (isContinuation_ofNat (by omega)), low_ofNat (by omega), low_ofNat (by omega),
    low_ofNat (by omega), hjoined]

end Octets

theorem readUtf8_encodeChar (c : Char) (rest : Bytes) :
    readUtf8 (String.utf8EncodeChar c ++ rest) = .ok (c, (String.utf8EncodeChar c).length) := by
  obtain ⟨n, hn⟩ : ∃ n, c.val.toNat = n := ⟨_, rfl⟩
  have hc : Char.ofNat n = c := hn ▸ Char.ofNat_toNat c
  have hvalid : n < 0xD800 ∨ 0xDFFF < n ∧ n < 0x110000 := hn ▸ c.valid
  unfold String.utf8EncodeChar
  rw [hn, ← hc]
  dsimp only
  split
  · exact readUtf8_one rest (by omega)
  split
  · exact readUtf8_two rest (by omega) (by omega)
  split
  · exact readUtf8_three rest (by omega) (by omega) (by omega)
  · exact readUtf8_four rest (by omega) (by omega)

theorem decodeUtf8From_encode (halves : Bool) {cs : List Char} {fuel position : Nat}
    (hf : cs.length ≤ fuel) : decodeUtf8From halves fuel position (cs.flatMap String.utf8EncodeChar) =
      .ok (cs.map .char) := by
  induction cs generalizing fuel position with
  | nil =>
    unfold decodeUtf8From
    rfl
  | cons c cs ih =>
    obtain ⟨fuel, rfl⟩ := Nat.exists_eq_succ_of_ne_zero (Nat.ne_zero_of_lt hf)
    have hread := readUtf8_encodeChar c (cs.flatMap String.utf8EncodeChar)
    have hrest : (String.utf8EncodeChar c ++ cs.flatMap String.utf8EncodeChar).drop
        (String.utf8EncodeChar c).length = cs.flatMap String.utf8EncodeChar := List.drop_left
    rw [List.flatMap_cons]
    generalize String.utf8EncodeChar c ++ cs.flatMap String.utf8EncodeChar = bytes at hread hrest ⊢
    cases bytes with
    | nil => cases hread
    | cons b bytes =>
      rw [decodeUtf8From, hread]
      dsimp only
      rw [hrest, ih (Nat.le_of_succ_le_succ hf)]
      rfl

theorem length_le_encode (cs : List Char) : cs.length ≤ (cs.flatMap String.utf8EncodeChar).length := by
  induction cs with
  | nil => rfl
  | cons c cs ih =>
    have hpos : 0 < (String.utf8EncodeChar c).length := by
      rw [String.length_utf8EncodeChar]
      exact c.utf8Size_pos
    rw [List.flatMap_cons, List.length_append, List.length_cons]
    omega

end Bytes

def byteOf (c : Char) : UInt8 := c.toNat.toUInt8

theorem toNat_byteOf {c : Char} (hc : c.toNat < 128) : (byteOf c).toNat = c.toNat :=
  Nat.mod_eq_of_lt (by omega)

theorem utf8EncodeChar_of_ascii {c : Char} (hc : c.toNat < 128) :
    String.utf8EncodeChar c = [byteOf c] := by
  have hsize : c.utf8Size = 1 := Char.utf8Size_eq_one_iff.mpr (Nat.le_of_lt_succ hc)
  rw [String.utf8EncodeChar_eq_singleton hsize]
  rfl

theorem encode_of_ascii {cs : List Char} (h : Ascii cs) :
    encode (String.ofList cs) = cs.map byteOf := by
  rw [encode_ofList]
  induction cs with
  | nil => rfl
  | cons c cs ih =>
    obtain ⟨hc, h⟩ := List.forall_mem_cons.mp h
    rw [List.flatMap_cons, utf8EncodeChar_of_ascii hc.2, ih h, List.map_cons, List.singleton_append]

theorem detect_map {cs : List Char} (h : Ascii cs) : detect (cs.map byteOf) = (.utf8, 0) := by
  have hbytes : ∀ b ∈ cs.map byteOf, b ≠ 0 ∧ b.toNat < 128 := by
    intro b hb
    obtain ⟨c, hc, rfl⟩ := List.mem_map.mp hb
    have hn := toNat_byteOf (h c hc).2
    refine ⟨fun e => ?_, hn ▸ (h c hc).2⟩
    rw [e] at hn
    exact absurd hn (Nat.ne_of_lt (h c hc).1)
  generalize cs.map byteOf = bytes at hbytes
  -- Every byte order mark begins with a byte that no ASCII text has.
  have hmark (m : UInt8) (more : Bytes) (hm : m = 0 ∨ 128 ≤ m.toNat) :
      ¬ (m :: more).isPrefixOf bytes = true := by
    cases bytes with
    | nil => exact Bool.false_ne_true
    | cons b bytes =>
      obtain ⟨hb, hlt⟩ := hbytes b List.mem_cons_self
      rw [List.isPrefixOf, Bool.and_eq_true, beq_iff_eq]
      rintro ⟨rfl, -⟩
      exact hm.elim hb (by omega)
  unfold detect
  rw [if_neg (hmark _ _ (by decide)), if_neg (hmark _ _ (by decide)),
    if_neg (hmark _ _ (by decide)), if_neg (hmark _ _ (by decide)),
    if_neg (hmark _ _ (by decide))]
  split
  · rw [if_neg (hbytes _ (by simp)).1, if_neg (hbytes _ (by simp)).1]
  · rw [if_neg (hbytes _ (by simp)).1, if_neg (hbytes _ (by simp)).1]
  · rfl

/-- ASCII text is its own encoding. -/
theorem decode_encode {s : String} (h : Ascii s.toList) : decode (encode s) = .ok s := by
  have hdetect : detect (encode s) = (.utf8, 0) := by
    rw [← String.ofList_toList (s := s), encode_of_ascii h]
    exact detect_map h
  unfold decode
  rw [hdetect, ← String.ofList_toList (s := s), encode_ofList]
  exact (decodeUtf8From_encode true (length_le_encode _)).trans
    (congrArg _ (Text.ofString_ofList _).symm)

end Utf

section ReadBack

variable [Json.Nesting] {v : Json}

theorem Json.readText_text {style : Style} (hs : style.Separating) (hp : v.Proper)
    (hw : v.unwritable? Nesting.limit = none) : readText (text style v) = .ok v.merged := by
  have e : readValue (2 * (Text.ofString (text style v)).length + 2) Nesting.limit
      (Text.ofString (text style v) ++ []) = .ok (v.merged, []) := by
    refine readValue_text hs v hp hw ?_ (by rintro l ⟨⟩)
    rw [Text.length_ofString]
    omega
  rw [List.append_nil] at e
  unfold readText
  rw [(begins_of_readValue e).skipSpaces, e]
  rfl

theorem Json.readBytes_text {style : Style} (hs : style.Separating) (hascii : style.IsAscii)
    (hp : v.Proper) (hw : v.unwritable? Nesting.limit = none) :
    readBytes (Utf.encode (text style v)) = .ok v.merged := by
  unfold readBytes
  rw [Utf.decode_encode (ascii_text hascii v)]
  dsimp only
  rw [readText_text hs hp hw]
  rfl

/-- Values of one text differ in nothing but the pairs of halves in them. -/
theorem Json.merged_eq_of_text {w : Json} (hp : v.Proper)
    (hw : v.unwritable? Nesting.limit = none) (hp' : w.Proper)
    (hw' : w.unwritable? Nesting.limit = none) (h : text spaced v = text spaced w) :
    v.merged = w.merged := by
  have e := readText_text separating_spaced hp hw
  rw [h, readText_text separating_spaced hp' hw'] at e
  exact (Except.ok.inj e).symm

theorem Cache.readJson_text (c : Cache) (hp : v.Proper)
    (hw : v.unwritable? Json.Nesting.limit = none) :
    c.readJson (v.text Json.spaced) = .ok v.merged := by
  have hascii : Ascii (v.text Json.spaced).toList := Json.ascii_text Json.isAscii_spaced v
  unfold readJson
  split
  · unfold Json.read
    split
    · next e =>
      have hmark : Letter.char '\uFEFF' ∈ Text.ofString (v.text Json.spaced) := e ▸ List.mem_cons_self
      obtain ⟨c, hc, hce⟩ := List.mem_map.mp hmark
      exact absurd (hascii _ (Letter.char.inj hce ▸ hc)).2 (by decide)
    · rw [Json.readText_text Json.separating_spaced hp hw]
      rfl
  · exact Json.readBytes_text Json.separating_spaced Json.isAscii_spaced hp hw

end ReadBack

end AssertionGrant
