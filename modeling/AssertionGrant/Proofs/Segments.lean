import AssertionGrant.Jose.Compact
import AssertionGrant.Proofs.Encoding
import AssertionGrant.Proofs.Merging
import AssertionGrant.Proofs.Letters
import AssertionGrant.Proofs.Steps

/-! A signed token reads back as its header and its payload. Its segments hold letters only, so the
two dots are where the signer put them. -/

namespace AssertionGrant

theorem Fields.get?_eq_none {fields : Fields} {name : Text}
    (h : name ∉ fields.map (·.1)) : fields.get? name = none := by
  unfold get?
  rw [Option.map_eq_none_iff, List.find?_eq_none]
  intro f hf he
  have he : f.1 = name := by simpa using he
  exact h (he ▸ List.mem_map_of_mem hf)

theorem Fields.mem_of_get? {fields : Fields} {name : Text} {v : Json}
    (h : fields.get? name = some v) : (name, v) ∈ fields := by
  obtain ⟨f, hf, rfl⟩ := Option.map_eq_some_iff.mp h
  have he : f.1 = name := by simpa using List.find?_some hf
  rw [← he]
  exact List.mem_of_find?_eq_some hf

namespace Json

theorem separating_compact : compact.Separating := ⟨rfl, ⟨[], rfl, nofun⟩, ⟨[], rfl, nofun⟩⟩

theorem isAscii_compact : compact.IsAscii := by
  constructor <;> decide

def Plain (fields : Fields) : Prop := ∀ f ∈ fields, ∃ s, f.2 = .str s

section Plain

variable {fields : Fields}

theorem Plain.fieldTexts_eq (h : Plain fields) (style : Style) :
    fieldTexts style fields = fields.map fun f => (f.1, text compact f.2) := by
  induction fields with
  | nil => rw [fieldTexts, List.map_nil]
  | cons f fields ih =>
    obtain ⟨⟨s, hs⟩, h⟩ := List.forall_mem_cons.mp h
    rw [fieldTexts, List.map_cons, ih h, hs, text, text]

theorem Plain.fieldsProper (h : Plain fields) : FieldsProper fields := by
  induction fields with
  | nil => trivial
  | cons f fields ih =>
    obtain ⟨⟨s, hs⟩, h⟩ := List.forall_mem_cons.mp h
    refine ⟨?_, ih h⟩
    rw [hs]
    trivial

theorem Plain.firstUnwritable (h : Plain fields) (depth : Nat) :
    firstUnwritableField? depth fields = none := by
  induction fields with
  | nil => rw [firstUnwritableField?]
  | cons f fields ih =>
    obtain ⟨⟨s, hs⟩, h⟩ := List.forall_mem_cons.mp h
    rw [firstUnwritableField?, ih h, hs]
    cases depth <;> rfl

def byName (fields : Fields) : Fields := fields.mergeSort fun a b => a.1.isUpTo b.1

theorem Plain.text_canonical (h : Plain fields) :
    text canonical (.obj fields) = text compact (.obj (byName fields)) := by
  have hsorted : Plain (byName fields) := fun f hf => h f (List.mem_mergeSort.mp hf)
  have hsort : (fields.map fun f => (f.1, text compact f.2)).mergeSort (fun a b => a.1.isUpTo b.1) =
      (byName fields).map fun f => (f.1, text compact f.2) := by
    symm
    exact List.map_mergeSort fun _ _ _ _ => rfl
  unfold text
  dsimp only
  rw [h.fieldTexts_eq, hsorted.fieldTexts_eq]
  change "\x7b" ++ ",".intercalate ((List.mergeSort _ _).map _) ++ "\x7d" = _
  rw [hsort]
  rfl

theorem Plain.byName (h : Plain fields) : Plain (byName fields) :=
  fun f hf => h f (List.mem_mergeSort.mp hf)

theorem nodup_byName (hnames : (fields.map (·.1)).Nodup) : ((byName fields).map (·.1)).Nodup :=
  ((List.mergeSort_perm fields _).map _).nodup_iff.mpr hnames

variable [Nesting]

theorem Plain.unwritable?_eq_none (h : Plain fields) :
    unwritable? Nesting.limit (.obj fields) = none := by
  obtain ⟨depth, hdepth⟩ := Nat.exists_eq_add_of_le' Nesting.two_le
  rw [hdepth, unwritable?]
  exact h.firstUnwritable _

theorem Plain.readBytes_text (h : Plain fields) (hnames : (fields.map (·.1)).Nodup) :
    readBytes (Utf.encode (text canonical (.obj fields))) =
      .ok (.obj (mergedFields [] (Json.byName fields))) := by
  rw [h.text_canonical]
  exact Json.readBytes_text separating_compact isAscii_compact
    ⟨nodup_byName hnames, h.byName.fieldsProper⟩ h.byName.unwritable?_eq_none

end Plain
end Json

namespace Compact

section Dots

variable {lead last first rest : List Char}

theorem splitFirst_append (h : '.' ∉ first) :
    splitFirst (first ++ '.' :: rest) = some (first, rest) := by
  have hfirst : ∀ c ∈ first, (decide (c ≠ '.')) = true := by
    intro c hc
    have hne : c ≠ '.' := fun e => h (e ▸ hc)
    simpa using hne
  unfold splitFirst
  rw [List.dropWhile_append_of_pos hfirst, List.takeWhile_append_of_pos hfirst]
  simp

theorem splitLast_append (h : '.' ∉ last) :
    splitLast (lead ++ '.' :: last) = some (lead, last) := by
  have hlast : ∀ c ∈ last.reverse, (decide (c ≠ '.')) = true := by
    intro c hc
    have hne : c ≠ '.' := fun e => h (e ▸ List.mem_reverse.mp hc)
    simpa using hne
  have hback : (lead ++ '.' :: last).reverse = last.reverse ++ '.' :: lead.reverse := by simp
  unfold splitLast
  dsimp only
  rw [hback, List.dropWhile_append_of_pos hlast, List.takeWhile_append_of_pos hlast]
  simp

end Dots

section Tokens

variable {header payload : Fields}

def headerRead (header : Fields) : Fields := Json.mergedFields [] (Json.byName header)

theorem get?_headerRead (hnames : (header.map (·.1)).Nodup) (name : String)
    (hname : (Text.ofString name).Basic) :
    (headerRead header).get? name = (Fields.get? (Json.byName header) name).map Json.merged :=
  Jwk.Follows.get?_merged (Json.nodup_byName hnames) name hname

theorem get?_headerRead_eq_none (hnames : (header.map (·.1)).Nodup) {name : String}
    (hname : (Text.ofString name).Basic) (h : Text.ofString name ∉ header.map (·.1)) :
    (headerRead header).get? name = none := by
  have hperm : (Json.byName header).Perm header := List.mergeSort_perm _ _
  have hnone : Fields.get? (Json.byName header) name = none :=
    Fields.get?_eq_none fun hmem => h ((hperm.map _).mem_iff.mp hmem)
  rw [get?_headerRead hnames name hname, hnone]
  rfl

theorem checkKeyId_headerRead (hplain : Json.Plain header) (hnames : (header.map (·.1)).Nodup) :
    checkKeyId (headerRead header) = .ok () := by
  unfold checkKeyId
  rw [get?_headerRead hnames "kid" (by decide)]
  cases hv : Fields.get? (Json.byName header) "kid" with
  | none => rfl
  | some v =>
    obtain ⟨s, rfl⟩ := hplain.byName _ (Fields.mem_of_get? hv)
    rfl

variable [Json.Nesting]

theorem readHeader_encode (hplain : Json.Plain header) (hnames : (header.map (·.1)).Nodup) :
    readHeader (Base64Url.encodeChars (Utf.encode (Json.text Json.canonical (.obj header)))) =
      .ok (headerRead header) := by
  unfold readHeader
  rw [Base64Url.decodeChars_encodeChars]
  dsimp only
  rw [hplain.readBytes_text hnames]
  rfl

/-- A token reads back as what was signed, with the pairs of halves in it joined, if its header is
plain and calls nothing critical. -/
theorem parse_of_sign {alg : Algorithm} {key : KeyMaterial} {token : String}
    (hplain : Json.Plain header) (hnames : (header.map (·.1)).Nodup)
    (hcritical : Text.ofString "crit" ∉ header.map (·.1))
    (hattached : Text.ofString "b64" ∉ header.map (·.1))
    (hp : (Json.obj payload).Proper)
    (hw : (Json.obj payload).unwritable? Json.Nesting.limit = none)
    (h : sign (.obj header) (.obj payload) alg key = .ok token) :
    ∃ t, parse token = .ok t ∧ t.header = headerRead header ∧
      t.unverifiedClaims = .ok (Json.mergedFields [] payload) := by
  obtain ⟨signature, -, h⟩ := bind_eq_ok.mp h
  obtain rfl := Except.ok.inj h
  have hdotless (bytes : Bytes) : '.' ∉ Base64Url.encodeChars bytes := by
    intro hdot
    obtain ⟨n, hn, e⟩ := Base64Url.exists_letter bytes '.' hdot
    exact (Base64Url.letter_ne hn).1 e.symm
  generalize hhead : Utf.encode (Json.text Json.canonical (.obj header)) = head
  generalize hbody : Utf.encode (Json.text Json.compact (.obj payload)) = body
  have hdetached : isDetached (headerRead header) = false := by
    unfold isDetached
    rw [get?_headerRead_eq_none hnames (by decide) hattached]
  have hheader : readHeader (Base64Url.encodeChars head) = .ok (headerRead header) :=
    hhead ▸ readHeader_encode hplain hnames
  have hpayload : readPayload (headerRead header) (Base64Url.encodeChars body) = .ok body := by
    unfold readPayload
    rw [hdetached, Base64Url.decodeChars_encodeChars]
    rfl
  have hcrit : checkCritical (headerRead header) = .ok () := by
    unfold checkCritical
    rw [get?_headerRead_eq_none hnames (by decide) hcritical]
  have htext : (Base64Url.encode head ++ "." ++ Base64Url.encode body ++ "." ++
      Base64Url.encode signature).toList =
        (Base64Url.encodeChars head ++ '.' :: Base64Url.encodeChars body) ++
          '.' :: Base64Url.encodeChars signature := by
    have hdot : ".".toList = ['.'] := rfl
    unfold Base64Url.encode
    simp only [String.toList_append, String.toList_ofList, hdot, List.append_assoc,
      List.cons_append, List.nil_append]
  refine ⟨⟨Utf.encode (String.ofList (Base64Url.encodeChars head ++
    '.' :: Base64Url.encodeChars body)), headerRead header, body, signature⟩, ?_, rfl, ?_⟩
  · unfold parse
    rw [htext, splitLast_append (hdotless signature)]
    dsimp only
    rw [splitFirst_append (hdotless head)]
    dsimp only
    rw [Base64Url.decodeChars_encodeChars]
    refine bind_eq_ok.mpr ⟨_, hheader, bind_eq_ok.mpr ⟨_, hpayload, ?_⟩⟩
    exact bind_eq_ok.mpr ⟨_, checkKeyId_headerRead hplain hnames, bind_eq_ok.mpr ⟨_, hcrit, rfl⟩⟩
  · have hread := Json.readBytes_text Json.separating_compact Json.isAscii_compact hp hw
    rw [hbody] at hread
    unfold unverifiedClaims checkAttached payloadFields
    dsimp only
    rw [hdetached, hread]
    rfl

end Tokens
end Compact
end AssertionGrant
