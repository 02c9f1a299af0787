import Mathlib.Data.List.Find
import AssertionGrant.Jose.Key
import AssertionGrant.Proofs.Steps
import AssertionGrant.Proofs.Values

/-! What joining the pairs of halves in a value leaves alone: names and texts of the letters that need
no pair. A key whose fields could be read is read as the same key after it. -/

namespace AssertionGrant

namespace Text

variable {s t : Text}

def Basic (t : Text) : Prop := ∀ l ∈ t, l.code < 0x10000

instance (t : Text) : Decidable t.Basic := List.decidableBAll _ t

theorem eq_of_merged_eq (h : s.merged = t) (ht : t.Basic) : s = t := by
  induction s using merged_induction generalizing t with
  | nil => exact h
  | pair hi lo s hhi hlo ih =>
    rw [merged_pair hhi hlo] at h
    obtain ⟨c, hc, hn⟩ := exists_char_of_joined hhi hlo
    have hlt : Letter.code (.char c) < 0x10000 := ht _ (by rw [← h, hc]; exact List.mem_cons_self)
    change c.toNat < 0x10000 at hlt
    omega
  | cons l s hjoins ih =>
    rw [merged_cons hjoins] at h
    subst h
    rw [← ih rfl fun l hl => ht l (List.mem_cons_of_mem _ hl)]

theorem merged_eq_iff (ht : t.Basic) (hs : t.merged = t) : s.merged = t ↔ s = t :=
  ⟨fun h => eq_of_merged_eq h ht, fun h => h ▸ hs⟩

theorem merged_eq_nil_iff : t.merged = [] ↔ t = [] :=
  merged_eq_iff (List.forall_mem_nil _) rfl

theorem merged_of_toString? (h : t.toString?.isSome = true) : t.merged = t := by
  obtain ⟨s, hs⟩ := Option.isSome_iff_exists.mp h
  rw [toString?_eq_some.mp hs, merged_ofString]

end Text

namespace Fields

variable {fields sofar : Fields} {name n : Text} {v : Json}

theorem get?_set : (fields.set n v).get? name = if n = name then some v else fields.get? name := by
  induction fields with
  | nil => by_cases h : n = name <;> simp [set, get?, h]
  | cons f fields ih =>
    obtain ⟨m, w⟩ := f
    unfold get? at ih ⊢
    unfold set
    by_cases hm : m = n
    · subst hm
      by_cases h : m = name <;> simp [h]
    · by_cases h : m = name
      · subst h
        simp [hm, Ne.symm hm]
      · simpa [hm, h] using ih

theorem mem_names_set {m : Text} :
    m ∈ (fields.set n v).map (·.1) ↔ m = n ∨ m ∈ fields.map (·.1) := by
  induction fields with
  | nil => simp [set]
  | cons f fields ih =>
    obtain ⟨k, w⟩ := f
    unfold set
    split
    · next h => simp [h]
    · simp [ih, or_left_comm]

theorem nodup_set (h : (fields.map (·.1)).Nodup) : ((fields.set n v).map (·.1)).Nodup := by
  induction fields with
  | nil => simp [set]
  | cons f fields ih =>
    obtain ⟨k, w⟩ := f
    obtain ⟨hk, h⟩ := List.nodup_cons.mp h
    unfold set
    split
    · exact List.nodup_cons.mpr ⟨hk, h⟩
    · next hne =>
      refine List.nodup_cons.mpr ⟨fun hmem => ?_, ih h⟩
      rcases mem_names_set.mp hmem with rfl | hmem
      · exact hne rfl
      · exact hk hmem

theorem has_eq (fields : Fields) (name : Text) : fields.has name = (fields.get? name).isSome := by
  unfold has get?
  rw [Option.isSome_map, List.isSome_find?]

end Fields

namespace Json

variable {fields sofar : Fields} {name : Text}

/-- Under a name that only itself becomes, the merged fields have what the fields have. -/
theorem get?_mergedFields (hd : (fields.map (·.1)).Nodup)
    (hname : ∀ n, n.merged = name ↔ n = name) :
    Fields.get? (mergedFields sofar fields) name =
      ((fields.get? name).map merged).or (sofar.get? name) := by
  induction fields generalizing sofar with
  | nil => rfl
  | cons f fields ih =>
    obtain ⟨n, v⟩ := f
    obtain ⟨hn, hd⟩ := List.nodup_cons.mp hd
    rw [mergedFields, ih hd, Fields.get?_set]
    by_cases h : n = name
    · subst h
      have hnone : Fields.get? fields n = none := by
        unfold Fields.get?
        rw [Option.map_eq_none_iff, List.find?_eq_none]
        intro f hf e
        exact hn (List.mem_map.mpr ⟨f, hf, of_decide_eq_true e⟩)
      rw [hnone, if_pos ((hname n).mpr rfl)]
      simp [Fields.get?]
    · rw [if_neg ((hname n).not.mpr h)]
      simp [Fields.get?, h]

theorem fieldsProper_set {v : Json} (h : FieldsProper fields) (hv : v.Proper) :
    FieldsProper (fields.set name v) := by
  induction fields with
  | nil => exact ⟨hv, trivial⟩
  | cons f fields ih =>
    obtain ⟨hf, h⟩ := h
    unfold Fields.set
    split
    · exact ⟨hv, h⟩
    · exact ⟨hf, ih h⟩

mutual

theorem proper_merged (v : Json) (h : v.Proper) : v.merged.Proper := by
  cases v with
  | arr items => exact allProper_mergedItems items h
  | obj fields => exact proper_mergedFields fields h.2 List.nodup_nil trivial
  | _ => exact h

theorem allProper_mergedItems (items : List Json) (h : AllProper items) :
    AllProper (mergedItems items) := by
  cases items with
  | nil => trivial
  | cons v items => exact ⟨proper_merged v h.1, allProper_mergedItems items h.2⟩

theorem proper_mergedFields (fields : List (Text × Json)) {sofar : Fields} (h : FieldsProper fields)
    (hd : (sofar.map (·.1)).Nodup) (hp : FieldsProper sofar) :
    (Json.obj (mergedFields sofar fields)).Proper := by
  cases fields with
  | nil => exact ⟨hd, hp⟩
  | cons f fields =>
    exact proper_mergedFields fields h.2 (Fields.nodup_set hd)
      (fieldsProper_set hp (proper_merged f.2 h.1))

end

theorem mergedFields_eq_nil_iff : mergedFields sofar fields = [] ↔ sofar = [] ∧ fields = [] := by
  induction fields generalizing sofar with
  | nil => simp [mergedFields]
  | cons f fields ih =>
    have hset : sofar.set f.1.merged (merged f.2) ≠ [] := by
      cases sofar with
      | nil => exact List.cons_ne_nil _ _
      | cons g sofar =>
        unfold Fields.set
        split <;> exact List.cons_ne_nil _ _
    rw [mergedFields, ih]
    simp [hset]

theorem isTruthy_merged (v : Json) : v.merged.isTruthy = v.isTruthy := by
  cases v with
  | null => rfl
  | bool b => rfl
  | num n => rfl
  | str s =>
    unfold merged isTruthy
    rw [Bool.eq_iff_iff]
    simp [Text.merged_eq_nil_iff]
  | arr items => cases items <;> rfl
  | obj fields =>
    unfold merged isTruthy
    rw [Bool.eq_iff_iff]
    simp [mergedFields_eq_nil_iff]

end Json

namespace Jwk

def Follows {α : Type} (x y : Except Fault α) : Prop := ∀ a, x = .ok a → y = .ok a

namespace Follows

variable {α β : Type} {x y : Except Fault α}

theorem refl (x : Except Fault α) : Follows x x := fun _ h => h

theorem of_eq (h : x = y) : Follows x y := h ▸ refl x

theorem bind {k k' : α → Except Fault β} (h : Follows x y) (hk : ∀ a, Follows (k a) (k' a)) :
    Follows (x >>= k) (y >>= k') := by
  intro b hb
  obtain ⟨a, ha, hb⟩ := bind_eq_ok.mp hb
  exact bind_eq_ok.mpr ⟨a, h a ha, hk a b hb⟩

theorem map (h : Follows x y) (k : α → β) : Follows (x.map k) (y.map k) := by
  intro b hb
  cases x with
  | error f => cases hb
  | ok a =>
    rw [h a rfl]
    exact hb

theorem guarded {c : Prop} [Decidable c] {f : Fault} {k k' : PUnit → Except Fault α}
    (hk : ∀ u, Follows (k u) (k' u)) :
    Follows (if c then throw f >>= k else k ⟨⟩) (if c then throw f >>= k' else k' ⟨⟩) := by
  split
  · exact bind (refl _) hk
  · exact hk ⟨⟩

variable {fields : Fields}

theorem get?_merged (hd : (fields.map (·.1)).Nodup) (name : String)
    (hname : (Text.ofString name).Basic) : Fields.get? (Json.mergedFields [] fields) name =
      (fields.get? name).map Json.merged := by
  rw [Json.get?_mergedFields hd fun n => Text.merged_eq_iff hname (Text.merged_ofString name)]
  exact Option.or_none

theorem has_merged (hd : (fields.map (·.1)).Nodup) (name : String)
    (hname : (Text.ofString name).Basic) :
    Fields.has (Json.mergedFields [] fields) name = fields.has name := by
  rw [Fields.has_eq, Fields.has_eq, get?_merged hd name hname, Option.isSome_map]

theorem isText_merged (v : Option Json) (text : String) (htext : (Text.ofString text).Basic) :
    isText (v.map Json.merged) text = isText v text := by
  cases v with
  | none => rfl
  | some v =>
    cases v with
    | str s =>
      change (s.merged == Text.ofString text) = (s == Text.ofString text)
      rw [Bool.eq_iff_iff, beq_iff_eq, beq_iff_eq,
        Text.merged_eq_iff htext (Text.merged_ofString text)]
    | _ => rfl

theorem isPresent_merged (v : Option Json) : isPresent (v.map Json.merged) = isPresent v := by
  cases v with
  | none => rfl
  | some v => exact Json.isTruthy_merged v

theorem bytesOf (hd : (fields.map (·.1)).Nodup) (name : String) (hname : (Text.ofString name).Basic) :
    Follows (Jwk.bytesOf fields name) (Jwk.bytesOf (Json.mergedFields [] fields) name) := by
  intro bytes h
  unfold Jwk.bytesOf at h ⊢
  rw [get?_merged hd name hname]
  split at h
  · next s hs =>
    rw [hs, Option.map_some, Json.merged]
    dsimp only
    rw [Text.merged_of_toString?]
    · exact h
    · by_contra hnone
      rw [Option.not_isSome_iff_eq_none.mp hnone] at h
      cases h
  · cases h

theorem numberOf (hd : (fields.map (·.1)).Nodup) (name : String)
    (hname : (Text.ofString name).Basic) :
    Follows (Jwk.numberOf fields name) (Jwk.numberOf (Json.mergedFields [] fields) name) :=
  (bytesOf hd name hname).map _

theorem requireKind (hd : (fields.map (·.1)).Nodup) (kind : String)
    (hkind : (Text.ofString kind).Basic) :
    Follows (Jwk.requireKind fields kind) (Jwk.requireKind (Json.mergedFields [] fields) kind) := by
  apply of_eq
  unfold Jwk.requireKind
  rw [get?_merged hd "kty" (by decide), isText_merged _ kind hkind]

theorem curveOf (hd : (fields.map (·.1)).Nodup) :
    Follows (Jwk.curveOf fields) (Jwk.curveOf (Json.mergedFields [] fields)) := by
  apply of_eq
  unfold Jwk.curveOf
  dsimp only
  rw [get?_merged hd "crv" (by decide), isText_merged _ "P-256" (by decide),
    isText_merged _ "P-384" (by decide), isText_merged _ "P-521" (by decide),
    isText_merged _ "secp256k1" (by decide)]

theorem readFactors (hd : (fields.map (·.1)).Nodup) :
    Follows (Jwk.readFactors fields) (Jwk.readFactors (Json.mergedFields [] fields)) := by
  have hall : factorNames.all (Fields.has (Json.mergedFields [] fields)) =
      factorNames.all fields.has := by
    simp only [factorNames, List.all_cons, List.all_nil, has_merged hd "p" (by decide),
      has_merged hd "q" (by decide), has_merged hd "dp" (by decide),
      has_merged hd "dq" (by decide), has_merged hd "qi" (by decide)]
  unfold Jwk.readFactors
  rw [hall]
  exact .bind (refl _) fun _ => .bind (numberOf hd _ (by decide)) fun _ =>
    .bind (numberOf hd _ (by decide)) fun _ => .bind (numberOf hd _ (by decide)) fun _ =>
    .bind (numberOf hd _ (by decide)) fun _ => .bind (numberOf hd _ (by decide)) fun _ => refl _

theorem readRsa (hd : (fields.map (·.1)).Nodup) :
    Follows (Jwk.readRsa fields) (Jwk.readRsa (Json.mergedFields [] fields)) := by
  have hany : factorNames.any (Fields.has (Json.mergedFields [] fields)) =
      factorNames.any fields.has := by
    simp only [factorNames, List.any_cons, List.any_nil, has_merged hd "p" (by decide),
      has_merged hd "q" (by decide), has_merged hd "dp" (by decide),
      has_merged hd "dq" (by decide), has_merged hd "qi" (by decide)]
  unfold Jwk.readRsa
  rw [has_merged hd "d" (by decide), has_merged hd "oth" (by decide), hany]
  refine .bind (requireKind hd _ (by decide)) fun _ => .bind (numberOf hd _ (by decide)) fun n =>
    .bind (numberOf hd _ (by decide)) fun e => ?_
  split
  · exact refl _
  · refine .guarded fun _ => .bind (numberOf hd _ (by decide)) fun d => ?_
    dsimp only
    split
    · exact .bind (readFactors hd) fun _ => refl _
    · exact refl _

theorem readEc (hd : (fields.map (·.1)).Nodup) :
    Follows (Jwk.readEc fields) (Jwk.readEc (Json.mergedFields [] fields)) := by
  unfold Jwk.readEc
  rw [has_merged hd "d" (by decide)]
  refine .bind (requireKind hd _ (by decide)) fun _ => .bind (bytesOf hd _ (by decide)) fun xs =>
    .bind (bytesOf hd _ (by decide)) fun ys => .bind (curveOf hd) fun curve =>
    .guarded fun _ => .guarded fun _ => ?_
  split
  · exact .bind (bytesOf hd _ (by decide)) fun ds => refl _
  · exact refl _

theorem readEdwards (hd : (fields.map (·.1)).Nodup) :
    Follows (Jwk.readEdwards fields) (Jwk.readEdwards (Json.mergedFields [] fields)) := by
  unfold Jwk.readEdwards
  rw [has_merged hd "d" (by decide), get?_merged hd "crv" (by decide),
    isText_merged _ "Ed448" (by decide), isText_merged _ "Ed25519" (by decide)]
  refine .bind (requireKind hd _ (by decide)) fun _ => .guarded fun _ =>
    .bind (bytesOf hd _ (by decide)) fun point => ?_
  split
  · exact .bind (bytesOf hd _ (by decide)) fun seed => refl _
  · exact refl _

theorem readSecret (hd : (fields.map (·.1)).Nodup) :
    Follows (Jwk.readSecret fields) (Jwk.readSecret (Json.mergedFields [] fields)) := by
  unfold Jwk.readSecret
  rw [has_merged hd "k" (by decide)]
  exact .bind (requireKind hd _ (by decide)) fun _ => .guarded fun _ =>
    .bind (bytesOf hd _ (by decide)) fun bytes => refl _

end Follows

section Material

variable {fields : Fields} {name : Text}

theorem impliedAlgorithm_merged (hd : (fields.map (·.1)).Nodup) :
    impliedAlgorithm (Json.mergedFields [] fields) = impliedAlgorithm fields := by
  unfold impliedAlgorithm
  dsimp only
  rw [Follows.get?_merged hd "kty" (by decide), Follows.get?_merged hd "crv" (by decide)]
  simp only [Follows.isPresent_merged, Follows.isText_merged _ "EC" (by decide),
    Follows.isText_merged _ "RSA" (by decide), Follows.isText_merged _ "oct" (by decide),
    Follows.isText_merged _ "OKP" (by decide), Follows.isText_merged _ "P-256" (by decide),
    Follows.isText_merged _ "P-384" (by decide), Follows.isText_merged _ "P-521" (by decide),
    Follows.isText_merged _ "secp256k1" (by decide), Follows.isText_merged _ "Ed25519" (by decide)]

theorem ofName?_merged (name : Text) : Algorithm.ofName? name.merged = Algorithm.ofName? name := by
  have hbasic : ∀ a ∈ Algorithm.registry, a.1.Basic ∧ a.1.merged = a.1 := by decide
  unfold Algorithm.ofName?
  refine congrArg (Option.map _) (List.find?_congr fun a ha => ?_)
  obtain ⟨hbasic, hmerged⟩ := hbasic a ha
  rw [decide_eq_decide, eq_comm, Text.merged_eq_iff hbasic hmerged, eq_comm]

theorem algorithmName_merged (hd : (fields.map (·.1)).Nodup)
    (h : algorithmName fields = .ok name) :
    ∃ name', algorithmName (Json.mergedFields [] fields) = .ok name' ∧
      Algorithm.ofName? name' = Algorithm.ofName? name := by
  unfold algorithmName at h ⊢
  rw [Follows.get?_merged hd "alg" (by decide), impliedAlgorithm_merged hd]
  rcases hv : fields.get? "alg" with _ | v <;> rw [hv] at h
  · exact ⟨name, h, rfl⟩
  have htruthy := Json.isTruthy_merged v
  cases v with
  | str s =>
    have hempty : s.merged.isEmpty = s.isEmpty := by
      rw [Bool.eq_iff_iff, List.isEmpty_iff, List.isEmpty_iff, Text.merged_eq_nil_iff]
    simp only [Option.map_some, Json.merged, hempty]
    dsimp only at h
    split at h
    · next he =>
      rw [if_pos he]
      exact ⟨name, h, rfl⟩
    · next he =>
      rw [if_neg he]
      obtain rfl := Except.ok.inj h
      exact ⟨_, rfl, ofName?_merged s⟩
  | arr items =>
    simp only [Option.map_some, Json.merged] at htruthy ⊢
    rw [htruthy]
    exact ⟨name, h, rfl⟩
  | obj fields =>
    simp only [Option.map_some, Json.merged] at htruthy ⊢
    rw [htruthy]
    exact ⟨name, h, rfl⟩
  | _ => exact ⟨name, h, rfl⟩

theorem readMaterial_merged {material : KeyMaterial} (hd : (fields.map (·.1)).Nodup)
    (h : readMaterial fields = .ok material) :
    readMaterial (Json.mergedFields [] fields) = .ok material := by
  unfold readMaterial at h ⊢
  rw [Follows.get?_merged hd "kty" (by decide), Follows.isPresent_merged]
  refine Follows.guarded (fun _ a ha => ?_) material h
  obtain ⟨name, hname, ha⟩ := bind_eq_ok.mp ha
  obtain ⟨name', hname', hof⟩ := algorithmName_merged hd hname
  refine bind_eq_ok.mpr ⟨name', hname', ?_⟩
  rw [hof]
  generalize Algorithm.ofName? name = algorithm at ha ⊢
  rcases algorithm with _ | ⟨_ | _ | _ | _ | _ | _⟩
  · cases ha
  · cases ha
  · exact Follows.readSecret hd a ha
  · exact Follows.readRsa hd a ha
  · exact Follows.readRsa hd a ha
  · exact Follows.readEc hd a ha
  · exact Follows.readEdwards hd a ha

theorem ofJson_merged {key : Jwk} (hd : (key.fields.map (·.1)).Nodup)
    (h : ofJson (.obj key.fields) = .ok key) :
    ofJson (.obj (Json.mergedFields [] key.fields)) =
      .ok ⟨Json.mergedFields [] key.fields, key.material⟩ := by
  obtain ⟨fields, material⟩ := key
  have hread : readMaterial fields = .ok material := by
    change (readMaterial fields).map _ = _ at h
    cases hm : readMaterial fields with
    | error f =>
      rw [hm] at h
      cases h
    | ok m =>
      rw [hm] at h
      exact congrArg Except.ok ((Jwk.mk.injEq ..).mp (Except.ok.inj h)).2
  change (readMaterial _).map _ = _
  rw [readMaterial_merged hd hread]
  rfl

end Material
end Jwk
end AssertionGrant
