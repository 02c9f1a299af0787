import AssertionGrant.Proofs.Holdings
import AssertionGrant.Proofs.KeyFaults
import AssertionGrant.Proofs.Policy
import AssertionGrant.Proofs.Storages

/-! What comes of a text that stands in the place of a key on the shared server, whoever wrote it. It
spells a key and its scopes, or it is reported as corrupt, or a fault escapes that is not reported as
such. -/

namespace AssertionGrant

/-- The members of a value: the items of a list, the letters of a text, the names of an object. -/
inductive Json.HasMembers : Json → List Json → Prop
  | items (items : List Json) : HasMembers (.arr items) items
  | letters (s : Text) : HasMembers (.str s) (s.map fun l => .str [l])
  | names (fields : Fields) : HasMembers (.obj fields) (fields.names.map .str)

theorem Json.members_eq_some {v : Json} {members : List Json} :
    v.members = some members ↔ v.HasMembers members := by
  constructor
  · intro h
    cases v with
    | arr items =>
      obtain rfl := Option.some.inj h
      exact .items items
    | str s =>
      obtain rfl := Option.some.inj h
      exact .letters s
    | obj fields =>
      obtain rfl : fields.map (fun f => Json.str f.1) = members := Option.some.inj h
      have hnames : fields.map (fun f => Json.str f.1) = (Fields.names fields).map .str := by
        unfold Fields.names
        rw [List.map_map]
        rfl
      rw [hnames]
      exact .names fields
    | _ => cases h
  · rintro (items | s | fields)
    · rfl
    · rfl
    · unfold Json.members Fields.names
      rw [List.map_map]
      rfl

namespace KeyStore

variable {fields : Fields} {stored : Stored} {f : Fault} {cache : Cache} {text : String}

section Records

def scopesOf (fields : Fields) : Json := (fields.get? "scopes").getD (.arr [])

structure Spells (fields : Fields) (stored : Stored) : Prop where
  key : fields.get? "jwk" = some (.obj stored.key.fields)
  material : Jwk.readMaterial stored.key.fields = .ok stored.key.material
  scopes : (scopesOf fields).HasMembers stored.scopes

inductive Garbled (fields : Fields) : Prop
  | keyless (absent : fields.get? "jwk" = none)
  | deficient (key : Fields) (present : fields.get? "jwk" = some (.obj key))
      (deficient : Jwk.Deficient key)
  | scopeless (key : Jwk) (present : fields.get? "jwk" = some (.obj key.fields))
      (material : Jwk.readMaterial key.fields = .ok key.material)
      (bare : ∀ members, ¬ (scopesOf fields).HasMembers members)

/-- Fields whose key is no object, or one that is wrong but not deficient. -/
inductive Offends (fields : Fields) : Fault → Prop
  | notAnObject (v : Json) (present : fields.get? "jwk" = some v) (other : ∀ key, v ≠ .obj key) :
      Offends fields Jwk.Fault.notAnObject.toFault
  | notAKey (key : Fields) (f : Jwk.Fault) (present : fields.get? "jwk" = some (.obj key))
      (wrong : Jwk.readMaterial key = .error f) (proper : ¬ Jwk.Deficient key) :
      Offends fields f.toFault

theorem ofRecord_toFault (f : Jwk.Fault) :
    ofRecord f.toFault = if f.isDeficiency then corrupt else f.toFault := by
  cases f <;> rfl

theorem storedOf_of_fault {v : Json} {f : Jwk.Fault} (hv : fields.get? "jwk" = some v)
    (h : Jwk.ofJson v = .error f) :
    storedOf fields = .error (if f.isDeficiency then corrupt else f.toFault) := by
  unfold storedOf
  rw [hv, ← ofRecord_toFault]
  dsimp only
  rw [h]
  rfl

theorem storedOf_of_key {key : Jwk} (hv : fields.get? "jwk" = some (.obj key.fields))
    (h : Jwk.readMaterial key.fields = .ok key.material) :
    storedOf fields = (scopesOf fields).members.elim (.error corrupt)
      fun members => .ok ⟨key, members⟩ := by
  unfold storedOf scopesOf
  rw [hv]
  dsimp only
  rw [Jwk.ofJson_of_material h]
  cases ((fields.get? "scopes").getD (.arr [])).members <;> rfl

theorem Spells.storedOf (h : Spells fields stored) : storedOf fields = .ok stored := by
  rw [storedOf_of_key h.key h.material, Json.members_eq_some.mpr h.scopes]
  rfl

theorem Garbled.storedOf (h : Garbled fields) : storedOf fields = .error corrupt := by
  cases h with
  | keyless absent =>
    unfold KeyStore.storedOf
    rw [absent]
    rfl
  | deficient key present deficient =>
    obtain ⟨f, hf, hdeficiency⟩ := deficient.readMaterial
    rw [storedOf_of_fault present (Jwk.ofJson_of_fault hf), if_pos hdeficiency]
  | scopeless key present material bare =>
    have hmembers : (scopesOf fields).members = none :=
      Option.eq_none_iff_forall_ne_some.mpr fun members h =>
        bare members (Json.members_eq_some.mp h)
    rw [storedOf_of_key present material, hmembers]
    rfl

theorem Offends.storedOf (h : Offends fields f) : storedOf fields = .error f := by
  cases h with
  | notAnObject v present other =>
    refine storedOf_of_fault (f := .notAnObject) present ?_
    cases v with
    | obj key => exact absurd rfl (other key)
    | _ => rfl
  | notAKey key f present wrong proper =>
    rw [storedOf_of_fault present (Jwk.ofJson_of_fault wrong),
      Jwk.not_isDeficiency_of_not_deficient wrong proper]
    rfl

theorem record_cases (fields : Fields) :
    (∃ stored, Spells fields stored) ∨ Garbled fields ∨ ∃ f, Offends fields f := by
  cases hv : fields.get? "jwk" with
  | none => exact .inr (.inl (.keyless hv))
  | some v =>
    by_cases hobj : ∃ key, v = .obj key
    · obtain ⟨key, rfl⟩ := hobj
      cases hread : Jwk.readMaterial key with
      | error f =>
        by_cases hkey : Jwk.Deficient key
        · exact .inr (.inl (.deficient key hv hkey))
        · exact .inr (.inr ⟨_, .notAKey key f hv hread hkey⟩)
      | ok material =>
        by_cases hscopes : ∃ members, (scopesOf fields).HasMembers members
        · obtain ⟨members, hmembers⟩ := hscopes
          exact .inl ⟨⟨⟨key, material⟩, members⟩, hv, hread, hmembers⟩
        · exact .inr (.inl (.scopeless ⟨key, material⟩ hv hread (not_exists.mp hscopes)))
    · exact .inr (.inr ⟨_, .notAnObject v hv (not_exists.mp hobj)⟩)

theorem Offends.kind (h : Offends fields f) :
    f.kind ∈ [.wrongObject, .unsupportedKey, .notImplemented, .invalidKey] := by
  cases h with
  | notAnObject => decide
  | notAKey key f present wrong proper =>
    have hproper := Jwk.not_isDeficiency_of_not_deficient wrong proper
    cases f with
    | missing | incomparable => cases hproper
    | _ => simp [Jwk.Fault.toFault]

end Records

section Texts

variable [Json.Nesting]

def Writes (cache : Cache) (text : String) (stored : Stored) : Prop :=
  ∃ fields, cache.readJson text = .ok (.obj fields) ∧ Spells fields stored

def Unreadable (cache : Cache) (text : String) : Prop :=
  (∃ j, cache.readJson text = .error j ∧ j.isTooDeep = false) ∨
    ∃ v, cache.readJson text = .ok v ∧ ∀ fields, v = .obj fields → Garbled fields

def Escapes (cache : Cache) (text : String) (f : Fault) : Prop :=
  (∃ j, cache.readJson text = .error j ∧ j.isTooDeep = true ∧ f = ⟨.tooDeep, j.message⟩) ∨
    ∃ fields, cache.readJson text = .ok (.obj fields) ∧ Offends fields f

theorem Writes.readStored (h : Writes cache text stored) :
    readStored cache text = .ok stored := by
  obtain ⟨fields, hread, hspells⟩ := h
  unfold KeyStore.readStored
  rw [hread]
  exact hspells.storedOf

theorem Unreadable.readStored (h : Unreadable cache text) :
    readStored cache text = .error corrupt := by
  unfold KeyStore.readStored
  rcases h with ⟨j, hread, hdepth⟩ | ⟨v, hread, hgarbled⟩
  · rw [hread]
    dsimp only
    rw [hdepth]
    rfl
  · rw [hread]
    cases v with
    | obj fields => exact (hgarbled fields rfl).storedOf
    | _ => rfl

theorem Escapes.readStored (h : Escapes cache text f) : readStored cache text = .error f := by
  unfold KeyStore.readStored
  rcases h with ⟨j, hread, hdepth, rfl⟩ | ⟨fields, hread, hoffends⟩
  · rw [hread]
    dsimp only
    rw [hdepth, if_pos rfl]
    unfold Json.Fault.isTooDeep at hdepth
    unfold Json.Fault.toFault
    split at hdepth
    · next hcause => rw [hcause]
    · cases hdepth
  · rw [hread]
    exact hoffends.storedOf

theorem text_cases (cache : Cache) (text : String) :
    (∃ stored, Writes cache text stored) ∨ Unreadable cache text ∨ ∃ f, Escapes cache text f := by
  cases hread : cache.readJson text with
  | error j =>
    cases hdepth : j.isTooDeep with
    | false => exact .inr (.inl (.inl ⟨j, hread, hdepth⟩))
    | true => exact .inr (.inr ⟨_, .inl ⟨j, hread, hdepth, rfl⟩⟩)
  | ok v =>
    by_cases hobj : ∃ fields, v = .obj fields
    · obtain ⟨fields, rfl⟩ := hobj
      rcases record_cases fields with ⟨stored, h⟩ | h | ⟨f, h⟩
      · exact .inl ⟨stored, fields, hread, h⟩
      · refine .inr (.inl (.inr ⟨_, hread, ?_⟩))
        rintro fields ⟨⟩
        exact h
      · exact .inr (.inr ⟨f, .inr ⟨fields, hread, h⟩⟩)
    · exact .inr (.inl (.inr ⟨v, hread, fun fields e => absurd ⟨fields, e⟩ hobj⟩))

theorem Escapes.kind (h : Escapes cache text f) :
    f.kind ∈ [.tooDeep, .wrongObject, .unsupportedKey, .notImplemented, .invalidKey] := by
  rcases h with ⟨j, -, -, rfl⟩ | ⟨fields, -, hoffends⟩
  · exact List.mem_cons_self
  · exact List.mem_cons_of_mem _ hoffends.kind

theorem Escapes.ne_corrupt (h : Escapes cache text f) : f ≠ corrupt := by
  rintro rfl
  have hkind := h.kind
  revert hkind
  decide

def Lists (cache : Cache) (text : String) (scopes : List Json) : Prop :=
  ∃ fields, cache.readJson text = .ok (.obj fields) ∧ scopesOf fields = .arr scopes ∧
    ∀ v ∈ scopes, ∃ t, v = .str t

theorem readStored_eq_ok : readStored cache text = .ok stored ↔ Writes cache text stored := by
  refine ⟨fun h => ?_, Writes.readStored⟩
  rcases text_cases cache text with ⟨s, hs⟩ | hs | ⟨f, hs⟩
  · rw [← Except.ok.inj (hs.readStored.symm.trans h)]
    exact hs
  · cases hs.readStored.symm.trans h
  · cases hs.readStored.symm.trans h

theorem readStored_eq_error : readStored cache text = .error f ↔
    f = corrupt ∧ Unreadable cache text ∨ Escapes cache text f := by
  constructor
  · intro h
    rcases text_cases cache text with ⟨s, hs⟩ | hs | ⟨g, hs⟩
    · cases hs.readStored.symm.trans h
    · exact .inl ⟨(Except.error.inj (hs.readStored.symm.trans h)).symm, hs⟩
    · rw [← Except.error.inj (hs.readStored.symm.trans h)]
      exact .inr hs
  · rintro (⟨rfl, h⟩ | h)
    · exact h.readStored
    · exact h.readStored

theorem find_shared {issuer subject keyId : Text}
    (h : cache.field? (hashName (.str issuer) (.str subject)) keyId = .ok (some text)) :
    find .shared cache (.str issuer) (.str subject) (.str keyId) = readStored cache text := by
  change (cache.field? _ keyId >>= _) = _
  rw [h]
  rfl

end Texts

end KeyStore

namespace Site
open KeyStore (Writes Unreadable Escapes Lists corrupt readStored)

theorem eq_of_parts {r r' : Except Fault KeyStore.Stored}
    (hkey : (r.mapError Failure.fault).map (fun stored => some stored.key) =
      (r'.mapError Failure.fault).map fun stored => some stored.key)
    (hscopes : (r.mapError Failure.fault).map (fun stored => Json.arr stored.scopes) =
      (r'.mapError Failure.fault).map fun stored => Json.arr stored.scopes) : r = r' := by
  match r, r', hkey, hscopes with
  | .error f, .error f', hkey, _ =>
    obtain rfl := Failure.fault.inj (Except.error.inj hkey)
    rfl
  | .ok ⟨key, scopes⟩, .ok ⟨key', scopes'⟩, hkey, hscopes =>
    obtain rfl : key = key' := Option.some.inj (Except.ok.inj hkey)
    obtain rfl : scopes = scopes' := Json.arr.inj (Except.ok.inj hscopes)
    rfl
  | .error _, .ok _, hkey, _ => cases hkey
  | .ok _, .error _, hkey, _ => cases hkey

variable [Json.Nesting]

structure Answers (s : Site) (issuer subject keyId : Text)
    (result : Except Fault KeyStore.Stored) : Prop where
  key : ((Act.publicKey issuer subject keyId).outcome s).1 =
    (result.mapError .fault).map fun stored => some stored.key
  scopes : ((Act.publicKeyScopes issuer subject (.str keyId)).outcome s).1 =
    (result.mapError .fault).map fun stored => .arr stored.scopes

variable {s : Site} {issuer subject keyId : Text}

theorem answers_iff (hcalm : s.disturbances = {}) {result : Except Fault KeyStore.Stored} :
    s.Answers issuer subject keyId result ↔
      s.keys.find s.cache (.str issuer) (.str subject) (.str keyId) = result := by
  have hkey : s.keyAt issuer subject keyId =
      ((s.keys.find s.cache (.str issuer) (.str subject) (.str keyId)).mapError .fault).map
        fun stored => some stored.key := by
    unfold keyAt
    rw [hcalm]
    rfl
  have hscopes : s.scopesAt issuer subject (.str keyId) =
      ((s.keys.find s.cache (.str issuer) (.str subject) (.str keyId)).mapError .fault).map
        fun stored => .arr stored.scopes := by
    unfold scopesAt
    rw [hcalm]
    rfl
  constructor
  · rintro ⟨h₁, h₂⟩
    rw [Act.outcome_publicKey, hkey] at h₁
    rw [Act.outcome_publicKeyScopes, hscopes] at h₂
    exact eq_of_parts h₁ h₂
  · rintro rfl
    exact ⟨by rw [Act.outcome_publicKey, hkey], by rw [Act.outcome_publicKeyScopes, hscopes]⟩

/-- A text in the place of a key is answered with the key and the scopes that it writes, is reported
as corrupt where it is unreadable, and otherwise gives a fault of another kind. So either it is
reported or its scopes are a list of texts, exactly if no fault escapes and nothing else is taken for
scopes. -/
theorem stored_text_outcomes {text : String} (hshared : s.keys = .shared)
    (hcalm : s.disturbances = {}) (htext : s.cache.field?
      (KeyStore.hashName (.str issuer) (.str subject)) keyId = .ok (some text)) :
    (∃ result, s.Answers issuer subject keyId result) ∧
      (∀ stored, s.Answers issuer subject keyId (.ok stored) ↔
        Writes s.cache text stored) ∧
      (∀ f, s.Answers issuer subject keyId (.error f) ↔
        f = corrupt ∧ Unreadable s.cache text ∨
          Escapes s.cache text f) ∧
      (∀ f, Escapes s.cache text f →
        f.kind ∈ [.tooDeep, .wrongObject, .unsupportedKey, .notImplemented, .invalidKey]) ∧
      ((s.Answers issuer subject keyId (.error corrupt) ∨
          ∃ stored, s.Answers issuer subject keyId (.ok stored) ∧
            Lists s.cache text stored.scopes) ↔
        (∀ f, ¬ Escapes s.cache text f) ∧
          ∀ stored, Writes s.cache text stored →
            Lists s.cache text stored.scopes) := by
  have hanswers (result : Except Fault KeyStore.Stored) :
      s.Answers issuer subject keyId result ↔ readStored s.cache text = result := by
    rw [answers_iff hcalm, hshared, KeyStore.find_shared htext]
  simp only [hanswers]
  refine ⟨⟨_, rfl⟩, fun _ => KeyStore.readStored_eq_ok, fun _ => KeyStore.readStored_eq_error,
    fun _ h => h.kind, ?_, ?_⟩
  · rintro (h | ⟨stored, h, hlists⟩)
    · refine ⟨fun f hf => ?_, fun stored hstored => ?_⟩
      · exact hf.ne_corrupt (Except.error.inj (hf.readStored.symm.trans h))
      · cases hstored.readStored.symm.trans h
    · refine ⟨fun f hf => ?_, fun other hother => ?_⟩
      · cases hf.readStored.symm.trans h
      · rw [Except.ok.inj (hother.readStored.symm.trans h)]
        exact hlists
  · rintro ⟨hescapes, hlists⟩
    rcases KeyStore.text_cases s.cache text with ⟨stored, h⟩ | h | ⟨f, h⟩
    · exact .inr ⟨stored, h.readStored, hlists stored h⟩
    · exact .inl h.readStored
    · exact absurd h (hescapes f)

end Site

namespace Specimen

def siteOfRecord (v : Json) : Site where
  now := ⟨0⟩
  keys := .shared
  cache := { fields := [⟨KeyStore.hashName (.str "i") (.str "s"), "k", v.text Json.spaced⟩] }

theorem field_siteOfRecord (v : Json) :
    (siteOfRecord v).cache.field? (KeyStore.hashName (.str "i") (.str "s")) "k" =
      .ok (some (v.text Json.spaced)) := by
  have hname : Cache.fieldName "k" = .ok "k" := rfl
  unfold Cache.field? Cache.reach siteOfRecord
  simp [hname, Cache.isField, bind, Except.bind, pure, Except.pure]

theorem record_misread :
    (siteOfRecord (.obj [("jwk", .obj [])])).Answers "i" "s" "k"
        (.error Jwk.Fault.kindMissing.toFault) ∧
      (siteOfRecord (.obj [("jwk", .obj key.fields), ("scopes", .str "ab")])).Answers "i" "s" "k"
        (.ok ⟨key, [.str "a", .str "b"]⟩) := by
  have hempty : KeyStore.Escapes (siteOfRecord (.obj [("jwk", .obj [])])).cache
      ((Json.obj [("jwk", .obj [])]).text Json.spaced) Jwk.Fault.kindMissing.toFault := by
    refine .inr ⟨_, Cache.readJson_text _ ⟨by decide, ⟨by decide, trivial⟩, trivial⟩ rfl,
      .notAKey [] .kindMissing rfl rfl ?_⟩
    rw [Jwk.deficient_iff]
    rintro ⟨f, h, hf⟩
    cases h
    cases hf
  obtain ⟨-, -, hfault, -⟩ := Site.stored_text_outcomes rfl rfl (field_siteOfRecord
    (.obj [("jwk", .obj [])]))
  obtain ⟨-, hanswer, -⟩ := Site.stored_text_outcomes rfl rfl (field_siteOfRecord
    (.obj [("jwk", .obj key.fields), ("scopes", .str "ab")]))
  refine ⟨(hfault _).mpr (.inr hempty), (hanswer _).mpr ⟨_, Cache.readJson_text _ ?_ rfl, ?_⟩⟩
  · exact ⟨by decide, entry.key.proper, trivial, trivial⟩
  · exact ⟨rfl, by decide +kernel, .letters "ab"⟩

end Specimen
end AssertionGrant
