import AssertionGrant.Proofs.Phrases
import AssertionGrant.Proofs.Requests

/-! What a form makes of itself as a request. It is refused for the first parameter that comes again
or for want of a grant type; all else depends on the values under each name, so fields of different
names may come in any order, and audiences in one field or in several. -/

namespace AssertionGrant

namespace Form

variable {form form' form'' before after : List (String × String)} {field : String × String}
  {name : String}

/-- Forms that come from each other by exchanging neighbours of different names. -/
inductive Reordered : List (String × String) → List (String × String) → Prop
  | refl (form : List (String × String)) : Reordered form form
  | cons {form form' : List (String × String)} (field : String × String) (h : Reordered form form') :
      Reordered (field :: form) (field :: form')
  | swap {first second : String × String} (h : first.1 ≠ second.1) (form : List (String × String)) :
      Reordered (first :: second :: form) (second :: first :: form)
  | trans {form form' form'' : List (String × String)} (h : Reordered form form')
      (h' : Reordered form' form'') : Reordered form form''

theorem valuesOf_cons (field : String × String) (form : List (String × String)) (name : String) :
    valuesOf (field :: form) name =
      if field.1 = name then field.2 :: valuesOf form name else valuesOf form name := by
  unfold valuesOf
  rw [List.filter_cons]
  by_cases h : field.1 = name <;> simp [h]

theorem length_valuesOf (form : List (String × String)) (name : String) :
    (valuesOf form name).length = (form.map (·.1)).count name := by
  unfold valuesOf
  rw [List.length_map, ← List.countP_eq_length_filter, List.count, List.countP_map]
  refine List.countP_congr fun field _ => ?_
  simp

theorem mem_valuesOf {value : String} : value ∈ valuesOf form name ↔ (name, value) ∈ form := by
  unfold valuesOf
  simp only [List.mem_map, List.mem_filter, decide_eq_true_eq]
  constructor
  · rintro ⟨⟨_, _⟩, ⟨hfield, rfl⟩, rfl⟩
    exact hfield
  · exact fun h => ⟨_, ⟨h, rfl⟩, rfl⟩

theorem Reordered.valuesOf_eq (h : Reordered form form') (name : String) :
    valuesOf form' name = valuesOf form name := by
  induction h with
  | refl form => rfl
  | cons field _ ih => rw [valuesOf_cons, valuesOf_cons, ih]
  | @swap first second h form =>
    simp only [valuesOf_cons]
    by_cases hfirst : first.1 = name
    · have hsecond : second.1 ≠ name := fun e => h (hfirst.trans e.symm)
      rw [if_neg hsecond, if_neg hsecond]
    · rw [if_neg hfirst, if_neg hfirst]
  | trans _ _ ih ih' => rw [ih', ih]

theorem reordered_front (h : ∀ other ∈ before, other.1 ≠ field.1) :
    Reordered (field :: (before ++ after)) (before ++ field :: after) := by
  induction before with
  | nil => exact .refl _
  | cons other before ih =>
    obtain ⟨hother, h⟩ := List.forall_mem_cons.mp h
    exact .trans (.swap hother.symm (before ++ after)) (.cons other (ih h))

theorem exists_first_field {value : String} {more : List String}
    (h : valuesOf form name = value :: more) :
    ∃ before after, form = before ++ (name, value) :: after ∧ ∀ other ∈ before, other.1 ≠ name := by
  induction form with
  | nil => cases h
  | cons field form ih =>
    rw [valuesOf_cons] at h
    split at h
    · next hname =>
      obtain ⟨rfl, -⟩ := List.cons.inj h
      exact ⟨[], form, by rw [← hname]; rfl, nofun⟩
    · next hname =>
      obtain ⟨before, after, rfl, hbefore⟩ := ih h
      exact ⟨field :: before, after, rfl, List.forall_mem_cons.mpr ⟨hname, hbefore⟩⟩

theorem reordered_iff : Reordered form form' ↔ ∀ name, valuesOf form' name = valuesOf form name := by
  refine ⟨Reordered.valuesOf_eq, fun h => ?_⟩
  induction form generalizing form' with
  | nil =>
    cases form' with
    | nil => exact .refl []
    | cons field form' =>
      have hfield := h field.1
      rw [valuesOf_cons, if_pos rfl] at hfield
      cases hfield
  | cons field form ih =>
    have hfield := h field.1
    rw [valuesOf_cons, if_pos rfl] at hfield
    obtain ⟨before, after, rfl, hbefore⟩ := exists_first_field hfield
    have hfront : Reordered (field :: (before ++ after)) (before ++ (field.1, field.2) :: after) :=
      reordered_front hbefore
    refine .trans (.cons field (ih fun name => ?_)) hfront
    have hname := (hfront.valuesOf_eq name).symm.trans (h name)
    rw [valuesOf_cons, valuesOf_cons] at hname
    split at hname
    · exact (List.cons.inj hname).2
    · exact hname

theorem find?_eq_head? (form : List (String × String)) (name : String) :
    form.find? (·.1 = name) = (valuesOf form name).head?.map (name, ·) := by
  rw [valuesOf_head?]
  cases h : form.find? (·.1 = name) with
  | none => rfl
  | some field =>
    have hname : field.1 = name := by simpa using List.find?_some h
    rw [← hname]
    rfl

theorem perm_firstValues (h : ∀ name, valuesOf form' name = valuesOf form name) :
    (firstValues form').Perm (firstValues form) := by
  have hnames : (Text.distinct (form'.map (·.1))).Perm (Text.distinct (form.map (·.1))) := by
    rw [List.perm_ext_iff_of_nodup (Text.nodup_distinct _) (Text.nodup_distinct _)]
    intro name
    rw [Text.mem_distinct, Text.mem_distinct, ← List.count_pos_iff, ← List.count_pos_iff,
      ← length_valuesOf, ← length_valuesOf, h]
  unfold firstValues
  simp only [find?_eq_head?, h]
  exact hnames.filterMap _

end Form

namespace AccessRequest
open Text Form

variable {form form' : List (String × String)} {client : Option Client} {session : Option Session}
  {id : Text} {name : String} {r : AccessRequest} {q : Refusal}

def occurrences (form : List (String × String)) (name : String) : Nat := (form.map (·.1)).count name

structure FirstRepeated (form : List (String × String)) (name : String) : Prop where
  again : 1 < occurrences form name
  first : ∃ before after, singleValued = before ++ name :: after ∧
    ∀ other ∈ before, occurrences form other ≤ 1

def Wordless (form : List (String × String)) : Prop :=
  ∀ value, ("grant_type", value) ∈ form → ∀ c ∈ value.toList, Chars.isBlank c = true

inductive Refuses (form : List (String × String)) : Refusal → Prop
  | repeated {name : String} (h : FirstRepeated form name) : Refuses form (repeated name)
  | missing (hsingle : ∀ name ∈ singleValued, occurrences form name ≤ 1) (hblank : Wordless form) :
      Refuses form grantTypeMissing

theorem Refuses.kind (h : Refuses form q) : q.kind = .invalidRequest := by
  cases h <;> rfl

theorem find?_repeated_eq_some :
    (singleValued.find? fun name => 1 < (valuesOf form name).length) = some name ↔
      FirstRepeated form name := by
  rw [List.find?_eq_some_iff_append]
  simp only [length_valuesOf, decide_eq_true_eq, Bool.not_eq_true', decide_eq_false_iff_not,
    Nat.not_lt]
  exact ⟨fun h => ⟨h.1, h.2⟩, fun h => ⟨h.1, h.2⟩⟩

theorem find?_repeated_eq_none :
    (singleValued.find? fun name => 1 < (valuesOf form name).length) = none ↔
      ∀ name ∈ singleValued, occurrences form name ≤ 1 := by
  rw [List.find?_eq_none]
  simp only [length_valuesOf, decide_eq_true_eq, Nat.not_lt]
  exact Iff.rfl

theorem words_firstOf_eq_nil (h : occurrences form "grant_type" ≤ 1) :
    words (firstOf form "grant_type") = [] ↔ Wordless form := by
  unfold occurrences at h
  rw [← length_valuesOf] at h
  unfold firstOf Wordless
  simp only [words_eq_nil_iff, ← mem_valuesOf, ofString, List.forall_mem_map]
  rcases hvalues : valuesOf form "grant_type" with _ | ⟨value, _ | ⟨second, rest⟩⟩
  · simp
  · simp [isBlank]
  · simp [hvalues] at h

theorem ofForm_eq_error : ofForm form client session id = .error q ↔ Refuses form q := by
  unfold ofForm
  cases hfind : singleValued.find? fun name => 1 < (valuesOf form name).length with
  | some name =>
    dsimp only
    rw [Except.error.injEq]
    constructor
    · rintro rfl
      exact .repeated (find?_repeated_eq_some.mp hfind)
    · intro h
      cases h with
      | repeated h =>
        rw [find?_repeated_eq_some.mpr h, Option.some.injEq] at hfind
        rw [hfind]
      | missing hsingle _ =>
        rw [find?_repeated_eq_none.mpr hsingle] at hfind
        cases hfind
  | none =>
    have hsingle := find?_repeated_eq_none.mp hfind
    have hgrant := words_firstOf_eq_nil (hsingle "grant_type" (by decide))
    have hunrepeated {name : String} : ¬ FirstRepeated form name := by
      rw [← find?_repeated_eq_some, hfind]
      nofun
    dsimp only
    split
    · next hempty =>
      rw [Except.error.injEq]
      constructor
      · rintro rfl
        exact .missing hsingle (hgrant.mp (List.isEmpty_iff.mp hempty))
      · intro h
        cases h with
        | repeated h => exact absurd h hunrepeated
        | missing => rfl
    · next hempty =>
      refine ⟨nofun, fun h => ?_⟩
      cases h with
      | repeated h => exact absurd h hunrepeated
      | missing _ hblank => exact absurd (List.isEmpty_iff.mpr (hgrant.mpr hblank)) hempty

theorem audienceOf_eq (form : List (String × String)) :
    audienceOf form = Scope.parse (" ".intercalate (valuesOf form "audience")) := by
  have hparse : (fun value : String => Scope.parse value) =
      fun value : String => distinct (words value) := funext fun value => Scope.parse_eq value
  rw [Scope.parse_eq, ← join_ofString, words_intercalate, List.flatMap_map]
  unfold audienceOf
  rw [hparse, distinct_flatMap_distinct]

theorem ofForm_congr (hvalues : ∀ name, name ≠ "audience" → valuesOf form' name = valuesOf form name)
    (haudience : audienceOf form' = audienceOf form) :
    ofForm form' client session id =
      (ofForm form client session id).map fun r => { r with form := firstValues form' } := by
  have hgrant := hvalues "grant_type" (by decide)
  have hassertion := hvalues "assertion" (by decide)
  have hscope := hvalues "scope" (by decide)
  unfold ofForm firstOf singleValued
  simp only [List.find?_cons, List.find?_nil, hgrant, hassertion, hscope, haudience]
  split
  · rfl
  · split <;> rfl

def SameButOrder : Except Refusal AccessRequest → Except Refusal AccessRequest → Prop
  | .error q, .error q' => q' = q
  | .ok r, .ok r' => (∃ parameters, r' = { r with form := parameters } ∧ parameters.Perm r.form) ∧
    ∀ name, r'.parameter? name = r.parameter? name
  | _, _ => False

theorem eq_of_ofForm (h : ofForm form client session id = .ok r) :
    r = { grantTypes := words (firstOf form "grant_type"), form := firstValues form,
          scopes := Scope.parse (firstOf form "scope"), audience := audienceOf form, client, session,
          id } := by
  unfold ofForm at h
  split at h
  · cases h
  · dsimp only at h
    split at h
    · cases h
    · exact (Except.ok.inj h).symm

theorem sameButOrder_of_valuesOf_eq (h : ∀ name, valuesOf form' name = valuesOf form name) :
    SameButOrder (ofForm form client session id) (ofForm form' client session id) := by
  have haudience : audienceOf form' = audienceOf form := by
    unfold audienceOf
    rw [h]
  rw [ofForm_congr (fun name _ => h name) haudience]
  cases hform : ofForm form client session id with
  | error q => rfl
  | ok r =>
    have hkept : r.form = firstValues form := congrArg (·.form) (eq_of_ofForm hform)
    refine ⟨⟨firstValues form', rfl, ?_⟩, fun name => ?_⟩
    · rw [hkept]
      exact perm_firstValues h
    · unfold parameter?
      dsimp only
      rw [hkept, find?_firstValues, find?_firstValues, find?_eq_head?, find?_eq_head?, h]

structure Listed (items : List Text) : Prop where
  nodup : items.Nodup
  words : ∀ item ∈ items, IsWord item

theorem listed_parse (raw : Text) : Listed (Scope.parse raw) where
  nodup := by
    rw [Scope.parse_eq]
    exact nodup_distinct _
  words _ := Scope.isWord_of_mem_parse

theorem listed_of_ofForm (h : ofForm form client session id = .ok r) :
    Listed r.scopes ∧ Listed r.audience := by
  obtain rfl := eq_of_ofForm h
  refine ⟨listed_parse _, ?_⟩
  dsimp only
  rw [audienceOf_eq]
  exact listed_parse _

/-- A form is refused for the first parameter that comes again, or without a grant type. Else the
scopes and the audiences are words that come once. Fields of different names may come in any order,
and audiences in any number of fields or in one. -/
theorem extraction_by_values (form : List (String × String)) (client : Option Client)
    (session : Option Session) (id : Text) :
    (∀ q, ofForm form client session id = .error q ↔ Refuses form q) ∧
      (∀ q, Refuses form q → q.kind = .invalidRequest) ∧
      (∀ r, ofForm form client session id = .ok r → Listed r.scopes ∧ Listed r.audience) ∧
      (∀ form', (Reordered form form' ↔ ∀ name, valuesOf form' name = valuesOf form name) ∧
        (Reordered form form' →
          SameButOrder (ofForm form client session id) (ofForm form' client session id))) ∧
      ∀ form', (∀ name, name ≠ "audience" → valuesOf form' name = valuesOf form name) →
        valuesOf form' "audience" = [" ".intercalate (valuesOf form "audience")] →
        (ofForm form' client session id).map (·.audience) =
          (ofForm form client session id).map (·.audience) := by
  refine ⟨fun q => ofForm_eq_error, fun q h => h.kind, fun r h => listed_of_ofForm h,
    fun form' => ⟨reordered_iff, fun h => sameButOrder_of_valuesOf_eq h.valuesOf_eq⟩,
    fun form' hvalues hjoined => ?_⟩
  have haudience : audienceOf form' = audienceOf form := by
    rw [audienceOf_eq, audienceOf_eq, hjoined, String.intercalate_singleton]
  rw [ofForm_congr hvalues haudience]
  cases ofForm form client session id <;> rfl

end AccessRequest

namespace Specimen

def fields : List (String × String) :=
  [("audience", "x y"), ("grant_type", "g"), ("audience", "y\tz")]

def reorderedFields : List (String × String) :=
  [("grant_type", "g"), ("audience", "x y"), ("audience", "y\tz")]

def joinedFields : List (String × String) := [("grant_type", "g"), ("audience", "x y y\tz")]

theorem fields_extracted : ∃ r r',
    AccessRequest.ofForm fields none none "" = .ok r ∧ AccessRequest.Listed r.audience ∧
      Form.Reordered fields reorderedFields ∧
      AccessRequest.ofForm reorderedFields none none "" = .ok r' ∧ r'.audience = r.audience ∧
      Form.valuesOf joinedFields "audience" = [" ".intercalate (Form.valuesOf fields "audience")] ∧
      (AccessRequest.ofForm joinedFields none none "").map (·.audience) = .ok r.audience := by
  obtain ⟨-, -, hlisted, hmoved, hjoined⟩ := AccessRequest.extraction_by_values fields none none ""
  have hreordered : Form.Reordered fields reorderedFields := .swap (by decide) _
  have hjoin : Form.valuesOf joinedFields "audience" =
      [" ".intercalate (Form.valuesOf fields "audience")] := by decide
  have hmoved := (hmoved reorderedFields).2 hreordered
  have hjoined := hjoined joinedFields (fun name hname => by
    simp [fields, joinedFields, Form.valuesOf_cons, hname.symm]) hjoin
  have haccepted : (AccessRequest.ofForm fields none none "").toOption.isSome = true := by
    decide +kernel
  cases hr : AccessRequest.ofForm fields none none "" with
  | error q =>
    rw [hr] at haccepted
    cases haccepted
  | ok r =>
    rw [hr] at hmoved hjoined
    cases hr' : AccessRequest.ofForm reorderedFields none none "" with
    | error q =>
      rw [hr'] at hmoved
      exact hmoved.elim
    | ok r' =>
      rw [hr'] at hmoved
      obtain ⟨⟨parameters, rfl, -⟩, -⟩ := hmoved
      exact ⟨r, _, rfl, (hlisted r hr).2, hreordered, rfl, rfl, hjoin, hjoined⟩

end Specimen
end AssertionGrant
