import AssertionGrant.Http.Credentials
import AssertionGrant.Proofs.Encoding
import AssertionGrant.Proofs.Letters

/-! The header that carries a name and a secret is read back as they were: the bytes of any text are
read as that text, plain letters and their padding as the bytes that they spell. Only a name with a
colon is cut there. -/

namespace AssertionGrant

namespace Utf

theorem decodeUtf8_encode (cs : List Char) : decodeUtf8 (encode (String.ofList cs)) = .ok cs := by
  unfold decodeUtf8
  rw [encode_ofList, decodeUtf8From_encode false (length_le_encode cs)]
  refine congrArg Except.ok (List.filterMap_map.trans ?_)
  exact List.filterMap_some

end Utf

namespace Base64

structure IsLetter (c : Char) : Prop where
  index : index? (plainLetter c) = Base64Url.index? c
  unpadding : plainLetter c ≠ '='
  solid : Chars.isBlank (plainLetter c) = false
  ascii : 0 < (plainLetter c).toNat ∧ (plainLetter c).toNat < 128

theorem isLetter_of_mem {bytes : Bytes} {c : Char} (h : c ∈ Base64Url.encodeChars bytes) :
    IsLetter c := by
  have hall : ∀ n < 64, index? (plainLetter (Base64Url.letter n)) =
      Base64Url.index? (Base64Url.letter n) ∧ plainLetter (Base64Url.letter n) ≠ '=' ∧
        Chars.isBlank (plainLetter (Base64Url.letter n)) = false ∧
          0 < (plainLetter (Base64Url.letter n)).toNat ∧
            (plainLetter (Base64Url.letter n)).toNat < 128 := by decide +kernel
  obtain ⟨n, hn, rfl⟩ := Base64Url.exists_letter bytes c h
  obtain ⟨hindex, hpad, hblank, hascii⟩ := hall n hn
  exact ⟨hindex, hpad, hblank, hascii⟩

theorem mapM_plainLetter {cs : List Char} (h : ∀ c ∈ cs, IsLetter c) :
    (cs.map plainLetter).mapM index? = cs.mapM Base64Url.index? := by
  induction cs with
  | nil => rfl
  | cons c cs ih =>
    obtain ⟨hc, h⟩ := List.forall_mem_cons.mp h
    rw [List.map_cons, List.mapM_cons, List.mapM_cons, hc.index, ih h]

theorem bytesOf_of_decodeIndices {ns : List Nat} {bytes : Bytes}
    (h : Base64Url.decodeIndices ns = some bytes) : bytesOf ns = bytes := by
  induction ns using Base64Url.decodeIndices.induct generalizing bytes with
  | case1 a b c d rest ih =>
    rw [Base64Url.decodeIndices] at h
    obtain ⟨more, hmore, rfl⟩ := Option.map_eq_some_iff.mp h
    rw [bytesOf, ih hmore]
    rfl
  | case2 | case4 =>
    next hn =>
    rw [Base64Url.decodeIndices, if_pos hn] at h
    exact Option.some.inj h
  | case3 | case5 =>
    next hn =>
    rw [Base64Url.decodeIndices, if_neg hn] at h
    cases h
  | case6 => cases h
  | case7 => exact Option.some.inj h

theorem length_encodeChars (bytes : Bytes) : (Base64Url.encodeChars bytes).length % 4 ≠ 1 := by
  induction bytes using Base64Url.encodeChars.induct with
  | case1 a b c rest ih =>
    rw [Base64Url.encodeChars]
    simp only [List.length_cons]
    omega
  | case2 a b => simp [Base64Url.encodeChars]
  | case3 a => simp [Base64Url.encodeChars]
  | case4 => simp [Base64Url.encodeChars]

theorem endsIn_padding {n : Nat} (h : n % 4 ≠ 1) : endsIn n ((4 - n % 4) % 4) = true := by
  obtain hn | hn | hn : n % 4 = 0 ∨ n % 4 = 2 ∨ n % 4 = 3 := by omega
  all_goals
    unfold endsIn
    rw [hn]
    simp

theorem decodeStrict_encode (bytes : Bytes) : decodeStrict (encode bytes) = some bytes := by
  obtain ⟨ns, hns, hbytes⟩ := Base64Url.mapM_encodeChars bytes
  have hletters : ∀ c ∈ Base64Url.encodeChars bytes, IsLetter c := fun _ => isLetter_of_mem
  have hlength := endsIn_padding (length_encodeChars bytes)
  rw [← mapM_plainLetter hletters] at hns
  rw [← List.length_map (f := plainLetter)] at hlength
  have hunpadded : ∀ c ∈ (Base64Url.encodeChars bytes).map plainLetter, decide (c ≠ '=') = true := by
    simp only [List.forall_mem_map, decide_eq_true_eq]
    exact fun c hc => (hletters c hc).unpadding
  unfold decodeStrict encode
  dsimp only
  generalize (Base64Url.encodeChars bytes).map plainLetter = letters at hns hlength hunpadded
  generalize (4 - letters.length % 4) % 4 = pads at hlength
  have htake : (letters ++ List.replicate pads '=').takeWhile (· ≠ '=') = letters := by
    rw [List.takeWhile_append_of_pos hunpadded]
    cases pads <;> simp [List.replicate_succ]
  rw [String.toList_ofList, htake, List.drop_left, List.length_replicate, hlength, hns]
  simp [bytesOf_of_decodeIndices hbytes]

theorem solid_of_mem {bytes : Bytes} : ∀ c ∈ (encode bytes).toList,
    (0 < c.toNat ∧ c.toNat < 128) ∧ Chars.isBlank c = false := by
  unfold encode
  rw [String.toList_ofList]
  refine List.forall_mem_append.mpr ⟨?_, fun c hc => ?_⟩
  · simp only [List.forall_mem_map]
    exact fun c hc => ⟨(isLetter_of_mem hc).ascii, (isLetter_of_mem hc).solid⟩
  · rw [List.eq_of_mem_replicate hc]
    decide

end Base64

namespace Splitting

theorem trimBoth_of_forall {α : Type} {test : α → Bool} {xs : List α}
    (h : ∀ x ∈ xs, test x = false) : trimBoth test xs = xs := by
  have hdrop {ys : List α} (hys : ∀ y ∈ ys, test y = false) : ys.dropWhile test = ys := by
    cases ys with
    | nil => rfl
    | cons y ys => rw [List.dropWhile_cons, hys y List.mem_cons_self, if_neg Bool.false_ne_true]
  unfold trimBoth trimEnd
  rw [hdrop h, hdrop fun x hx => h x (List.mem_reverse.mp hx), List.reverse_reverse]

variable {mark : Char} {before : List Char}

theorem takeWhile_append_cons (h : mark ∉ before) (after : List Char) :
    (before ++ mark :: after).takeWhile (· ≠ mark) = before := by
  rw [List.takeWhile_append_of_pos fun c hc => decide_eq_true (ne_of_mem_of_not_mem hc h)]
  simp

theorem dropWhile_append_cons (h : mark ∉ before) (after : List Char) :
    (before ++ mark :: after).dropWhile (· ≠ mark) = mark :: after := by
  rw [List.dropWhile_append_of_pos fun c hc => decide_eq_true (ne_of_mem_of_not_mem hc h)]
  simp

end Splitting

namespace Credentials

theorem carried_of_ascii {s : String} (h : Ascii s.toList) : carried s = s := by
  have hcarried : (s.toList.map Utf.byteOf).map (fun b => Char.ofNat b.toNat) = s.toList := by
    rw [List.map_map]
    refine (List.map_congr_left fun c hc => ?_).trans (List.map_id _)
    rw [Function.comp_apply, Utf.toNat_byteOf (h c hc).2, Char.ofNat_toNat, id]
  rw [carried, ← String.ofList_toList (s := s), Utf.encode_of_ascii h, hcarried]

/-- A name without a colon and a secret are read back from the header that carries them. -/
theorem ofHeader_header {name : String} (secret : String) (h : ':' ∉ name.toList) :
    ofHeader (header name secret) = .ok (some ⟨some name, some secret⟩) := by
  obtain ⟨bytes, hbytes⟩ : ∃ bytes, Utf.encode (name ++ ":" ++ secret) = bytes := ⟨_, rfl⟩
  have hsolid : ∀ c ∈ (Base64.encode bytes).toList,
      (0 < c.toNat ∧ c.toNat < 128) ∧ Chars.isBlank c = false := Base64.solid_of_mem
  have htext : (header name secret).toList = "Basic".toList ++ ' ' :: (Base64.encode bytes).toList := by
    unfold header
    rw [hbytes, String.toList_append]
    rfl
  have hscheme : Ascii "Basic".toList := by decide
  have hascii : Ascii (header name secret).toList := by
    rw [htext]
    exact List.forall_mem_append.mpr ⟨hscheme, List.forall_mem_cons.mpr
      ⟨by decide, fun c hc => (hsolid c hc).1⟩⟩
  have htrim : Chars.trim (Base64.encode bytes) = Base64.encode bytes := by
    unfold Chars.trim
    rw [Splitting.trimBoth_of_forall fun c hc => (hsolid c hc).2, String.ofList_toList]
  have hletters : (Base64.encode bytes).toList.all (·.toNat < 128) = true :=
    List.all_eq_true.mpr fun c hc => decide_eq_true (hsolid c hc).1.2
  have hpair : Utf.decodeUtf8 bytes = .ok (name.toList ++ ':' :: secret.toList) := by
    rw [← hbytes, ← String.ofList_toList (s := name ++ ":" ++ secret), Utf.decodeUtf8_encode]
    simp
  have hcut : ofPair (name.toList ++ ':' :: secret.toList) = ⟨some name, some secret⟩ := by
    unfold ofPair
    rw [Splitting.takeWhile_append_cons h, Splitting.dropWhile_append_cons h, List.drop_one,
      List.tail_cons, String.ofList_toList, String.ofList_toList]
  unfold ofHeader
  dsimp only
  rw [carried_of_ascii hascii, htext, Splitting.takeWhile_append_cons (by decide),
    Splitting.dropWhile_append_cons (by decide), List.drop_one, List.tail_cons,
    String.ofList_toList, String.ofList_toList, htrim, if_pos (by decide)]
  unfold ofLetters
  rw [hletters, Base64.decodeStrict_encode]
  dsimp only [Option.map_some]
  rw [hpair]
  exact congrArg (fun given => Except.ok (some given)) hcut

end Credentials
end AssertionGrant
