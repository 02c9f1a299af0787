import AssertionGrant.Proofs.Encoding
import AssertionGrant.Proofs.Merging
import AssertionGrant.Proofs.Shelves

/-! What a key store holds: in memory the keys themselves, on the shared server a text of each, which
reads back as the key with the pairs of halves in it joined. Either way a registration that goes
through puts a key into its place, a removal clears a place, and every answer comes from what is held.
On the server places that differ in pairs of halves only are one place. -/

namespace AssertionGrant

section Received

variable (shared : Bool)

/-- A text as a store gives it back. The shared server joins the halves of pairs. -/
def Text.received (t : Text) : Text := if shared then t.merged else t

theorem Text.received_of_toString? {shared : Bool} {t : Text}
    (h : shared = true → t.toString?.isSome = true) : t.received shared = t := by
  cases shared with
  | false => rfl
  | true => exact Text.merged_of_toString? (h rfl)

def Fields.received (fields : Fields) : Fields :=
  if shared then Json.mergedFields [] fields else fields

def Jwk.received (key : Jwk) : Jwk := ⟨key.fields.received shared, key.material⟩

end Received

theorem Jwk.ofJson_of_material {fields : Fields} {material : KeyMaterial}
    (h : readMaterial fields = .ok material) : ofJson (.obj fields) = .ok ⟨fields, material⟩ := by
  unfold ofJson
  dsimp only
  rw [h]
  rfl

structure NamedKey where
  jwk : Jwk
  keyId : Text
  named : jwk.id = .str keyId
  spelled : Jwk.ofJson (.obj jwk.fields) = .ok jwk
  proper : (Json.obj jwk.fields).Proper

theorem NamedKey.ofJson_received (key : NamedKey) (shared : Bool) :
    Jwk.ofJson (.obj (key.jwk.fields.received shared)) = .ok (key.jwk.received shared) := by
  cases shared with
  | false => exact key.spelled
  | true => exact Jwk.ofJson_merged key.proper.1 key.spelled

theorem NamedKey.id_received (key : NamedKey) (shared : Bool) :
    (key.jwk.received shared).id = .str (key.keyId.received shared) := by
  cases shared with
  | false => exact key.named
  | true =>
    have hid := key.named
    unfold Jwk.id at hid ⊢
    change (Fields.get? (Json.mergedFields [] key.jwk.fields) "kid").getD .null = _
    rw [Jwk.Follows.get?_merged key.proper.1 "kid" (by decide)]
    cases hv : key.jwk.fields.get? "kid" with
    | none =>
      rw [hv] at hid
      cases hid
    | some v =>
      rw [hv] at hid
      obtain rfl : v = .str key.keyId := hid
      rfl

def NamedKey.received (shared : Bool) (key : NamedKey) : NamedKey where
  jwk := key.jwk.received shared
  keyId := key.keyId.received shared
  named := key.id_received shared
  spelled := key.ofJson_received shared
  proper := by
    cases shared with
    | false => exact key.proper
    | true => exact Json.proper_mergedFields _ key.proper.2 List.nodup_nil trivial

structure Holding where
  issuer : Text
  subject : Text
  key : NamedKey
  scopes : List Text

namespace Holding

def isFor (shared : Bool) (issuer subject : Text) (e : Holding) : Bool :=
  e.issuer.received shared == issuer.received shared &&
    e.subject.received shared == subject.received shared

def place (shared : Bool) (e : Holding) : Text × Text × Text :=
  (e.issuer.received shared, e.subject.received shared, e.key.keyId)

def scopesJson (e : Holding) : List Json := e.scopes.map .str

def stored (shared : Bool) (e : Holding) : KeyStore.Stored :=
  ⟨e.key.jwk.received shared, e.scopes.map fun scope => .str (scope.received shared)⟩

def registration (e : Holding) : Registration :=
  ⟨.str e.issuer, .str e.subject, .str e.key.keyId, e.key.jwk, e.scopesJson⟩

def hashField (e : Holding) : HashField :=
  ⟨KeyStore.hashName (.str e.issuer) (.str e.subject), e.key.keyId.toString?.getD "",
    (KeyStore.record e.key.jwk e.scopesJson).text Json.spaced⟩

def listing (l : List Holding) (shared : Bool) (issuer subject : Text) : List Holding :=
  if shared then (l.filter (·.isFor shared issuer subject)).mergeSort fun a b =>
    a.key.keyId.isUpTo b.key.keyId
  else l.filter (·.isFor shared issuer subject)

variable {shared : Bool} {issuer subject : Text} {e : Holding} {l : List Holding}

theorem isFor_iff : e.isFor shared issuer subject = true ↔
    e.issuer.received shared = issuer.received shared ∧
      e.subject.received shared = subject.received shared := by
  unfold isFor
  rw [Bool.and_eq_true, beq_iff_eq, beq_iff_eq]

theorem mem_listing :
    e ∈ listing l shared issuer subject ↔ e ∈ l ∧ e.isFor shared issuer subject = true := by
  cases shared with
  | false => exact List.mem_filter
  | true => exact List.mem_mergeSort.trans List.mem_filter

variable [Json.Nesting]

def Writable (e : Holding) : Prop :=
  (KeyStore.record e.key.jwk e.scopesJson).unwritable? Json.Nesting.limit = none

instance (e : Holding) : Decidable e.Writable := inferInstanceAs (Decidable (_ = none))

def Sendable (e : Holding) : Prop := e.Writable ∧ e.key.keyId.toString?.isSome = true

instance (e : Holding) : Decidable e.Sendable := inferInstanceAs (Decidable (_ ∧ _))

end Holding

namespace KeyStore

variable {store store' : KeyStore} {cache cache' : Cache} {l : List Holding} {e : Holding}
  {issuer subject keyId : Text}

def isShared : KeyStore → Bool
  | .memory _ => false
  | .shared => true

def Names (store : KeyStore) (keyId : Text) : Prop :=
  store.isShared = true → keyId.toString?.isSome = true

instance (store : KeyStore) (keyId : Text) : Decidable (store.Names keyId) :=
  inferInstanceAs (Decidable (_ → _))

section Names

/-- The server has one hash for the issuers and subjects that differ in pairs of halves only. -/
theorem hashName_eq_iff {issuer' subject' : Text} :
    hashName (.str issuer) (.str subject) = hashName (.str issuer') (.str subject') ↔
      issuer.merged = issuer'.merged ∧ subject.merged = subject'.merged := by
  constructor
  · intro h
    -- Whatever is read back under the least limit tells the two texts apart.
    let _ : Json.Nesting := ⟨2, Nat.le_refl 2⟩
    have hp (i s : Text) : (Json.arr [.str i, .str s]).Proper := ⟨trivial, trivial, trivial⟩
    have hw (i s : Text) :
        (Json.arr [.str i, .str s]).unwritable? Json.Nesting.limit = none := rfl
    have e := Json.merged_eq_of_text (hp _ _) (hw _ _) (hp _ _) (hw _ _)
      ((String.append_right_inj _).mp h)
    simpa [Json.merged, Json.mergedItems] using e
  · rintro ⟨hi, hs⟩
    unfold hashName
    simp only [Json.text, Json.itemTexts]
    rw [← Json.stringText_merged issuer, hi, Json.stringText_merged, ← Json.stringText_merged subject,
      hs, Json.stringText_merged]

theorem isAt_registration : e.registration.isAt (.str issuer) (.str subject) (.str keyId) =
    decide (e.place false = (issuer, subject, keyId)) := by
  change (e.issuer == issuer && e.subject == subject && e.key.keyId == keyId) = _
  change _ = decide ((e.issuer, e.subject, e.key.keyId) = _)
  rw [Bool.eq_iff_iff]
  simp only [Bool.and_eq_true, beq_iff_eq, decide_eq_true_eq, Prod.mk.injEq, and_assoc]

theorem hash_hashField :
    decide (e.hashField.hash = hashName (.str issuer) (.str subject)) =
      e.isFor true issuer subject := by
  rw [Bool.eq_iff_iff, decide_eq_true_eq, Holding.isFor_iff]
  exact hashName_eq_iff

theorem isField_hashField {name : String} (hid : e.key.keyId.toString?.isSome = true) :
    Cache.isField (hashName (.str issuer) (.str subject)) name e.hashField =
      decide (e.place true = (issuer.merged, subject.merged, Text.ofString name)) := by
  obtain ⟨keyId, hkey⟩ := Option.isSome_iff_exists.mp hid
  have hname : e.hashField.name = keyId := congrArg (Option.getD · "") hkey
  have hid : e.key.keyId = Text.ofString keyId := Text.toString?_eq_some.mp hkey
  unfold Cache.isField
  rw [beq_eq_decide, hash_hashField, hname, Bool.eq_iff_iff]
  unfold Holding.place
  simp only [Bool.and_eq_true, beq_iff_eq, decide_eq_true_eq, Prod.mk.injEq, Holding.isFor_iff,
    and_assoc, hid, Text.ofString_inj]
  rfl

end Names

section Server

theorem fieldName_eq_ok {name : Text} {s : String} :
    Cache.fieldName name = .ok s ↔ name.toString? = some s := by
  unfold Cache.fieldName
  cases name.toString? with
  | none => exact ⟨nofun, nofun⟩
  | some s' => rw [Except.ok.injEq, Option.some.injEq]

theorem reach_eq_ok {u : Unit} : cache.reach = .ok u ↔ cache.outage = none := by
  unfold Cache.reach
  cases cache.outage with
  | none => exact iff_of_true rfl rfl
  | some text => exact ⟨nofun, nofun⟩

theorem reach_fieldName_eq_ok {α : Type} {name : Text} {k : String → Except Fault α} {a : α} :
    (cache.reach >>= fun _ => Cache.fieldName name >>= k) = .ok a ↔
      cache.outage = none ∧ ∃ s, name.toString? = some s ∧ k s = .ok a := by
  simp only [bind_eq_ok, reach_eq_ok, fieldName_eq_ok, exists_const]

theorem setField_eq_ok {hash : String} {name : Text} {value : String} :
    cache.setField hash name value = .ok cache' ↔ cache.outage = none ∧
      ∃ s, name.toString? = some s ∧
        cache' = { cache with fields := Cache.putField ⟨hash, s, value⟩ cache.fields } := by
  refine reach_fieldName_eq_ok.trans (and_congr_right fun _ => exists_congr fun s =>
    and_congr_right fun _ => ?_)
  exact ⟨fun h => (Except.ok.inj h).symm, fun h => congrArg Except.ok h.symm⟩

theorem removeField_eq_ok {hash : String} {name : Text} :
    cache.removeField hash name = .ok cache' ↔ cache.outage = none ∧
      ∃ s, name.toString? = some s ∧
        cache' = { cache with fields := cache.fields.filter fun f => !Cache.isField hash s f } := by
  refine reach_fieldName_eq_ok.trans (and_congr_right fun _ => exists_congr fun s =>
    and_congr_right fun _ => ?_)
  exact ⟨fun h => (Except.ok.inj h).symm, fun h => congrArg Except.ok h.symm⟩

theorem field?_eq (hash : String) (keyId : Text) (hup : cache.outage = none) :
    cache.field? hash keyId = match keyId.toString? with
      | some s => .ok ((cache.fields.find? (Cache.isField hash s)).map (·.value))
      | none => .error ⟨.encoding, Utf.unencodable keyId⟩ := by
  unfold Cache.field? Cache.reach Cache.fieldName
  rw [hup]
  cases keyId.toString? <;> rfl

theorem mapM_eq_ok {α β ε : Type} {k : α → Except ε β} {k' : α → β} {l : List α}
    (h : ∀ a ∈ l, k a = .ok (k' a)) : l.mapM k = .ok (l.map k') := by
  induction l with
  | nil => rfl
  | cons a l ih =>
    obtain ⟨ha, h⟩ := List.forall_mem_cons.mp h
    rw [List.mapM_cons, ha, ih h]
    rfl

end Server

section Calls

theorem of_remove_eq_ok {issuer subject keyId : Json}
    (h : store.remove cache issuer subject keyId = .ok (store', cache')) :
    (∃ registry, store = .memory registry ∧
        store' = .memory (registry.remove issuer subject keyId) ∧ cache' = cache) ∨
      store = .shared ∧ store' = .shared ∧
        cache.removeField (hashName issuer subject) ((fieldName? keyId).getD "") = .ok cache' := by
  unfold remove at h
  cases store with
  | memory registry =>
    obtain ⟨_, -, h⟩ := bind_eq_ok.mp h
    split at h
    · obtain ⟨_, -, h⟩ := bind_eq_ok.mp h
      obtain ⟨rfl, rfl⟩ := Prod.mk.inj (Except.ok.inj h)
      exact .inl ⟨registry, rfl, rfl, rfl⟩
    · obtain ⟨rfl, rfl⟩ := Prod.mk.inj (Except.ok.inj h)
      exact .inl ⟨registry, rfl, rfl, rfl⟩
  | shared =>
    dsimp only at h
    cases hr : cache.removeField (hashName issuer subject) ((fieldName? keyId).getD "") with
    | error f =>
      rw [hr] at h
      cases h
    | ok c =>
      rw [hr] at h
      obtain ⟨rfl, rfl⟩ := Prod.mk.inj (Except.ok.inj h)
      exact .inr ⟨rfl, rfl, rfl⟩

variable [Json.Nesting]

theorem of_add_eq_ok {issuer subject scopes : Json} {key : Jwk}
    (h : store.add cache issuer subject key scopes = .ok (store', cache')) :
    key.id.isTruthy = true ∧ ∃ members, scopes.members = some members ∧
      ((∃ registry, store = .memory registry ∧
          store' = .memory (registry.add ⟨issuer, subject, key.id, key, members⟩) ∧
          cache' = cache) ∨
        store = .shared ∧ store' = .shared ∧ ∃ name text, fieldName? key.id = some name ∧
          storedText key members = .ok text ∧
          cache.setField (hashName issuer subject) name text = .ok cache') := by
  unfold add at h
  cases ht : key.id.isTruthy with
  | false =>
    rw [ht] at h
    cases h
  | true =>
    rw [ht] at h
    refine ⟨rfl, ?_⟩
    cases store with
    | memory registry =>
      obtain ⟨_, -, h⟩ := bind_eq_ok.mp h
      split at h
      · next members hm =>
        obtain ⟨rfl, rfl⟩ := Prod.mk.inj (Except.ok.inj h)
        exact ⟨members, hm, .inl ⟨registry, rfl, rfl, rfl⟩⟩
      · cases h
    | shared =>
      simp only [Bool.not_true, Bool.false_eq_true, if_false] at h
      split at h
      · next members hm =>
        obtain ⟨text, htext, h⟩ := bind_eq_ok.mp h
        split at h
        · next name hname =>
          split at h
          · next hset =>
            obtain ⟨rfl, rfl⟩ := Prod.mk.inj (Except.ok.inj h)
            exact ⟨members, hm, .inr ⟨rfl, rfl, name, text, hname, htext, hset⟩⟩
          · cases h
        · cases h
      · cases h

theorem storedText_eq_ok {text : String} : storedText e.key.jwk e.scopesJson = .ok text ↔
    e.Writable ∧ text = e.hashField.value := by
  unfold storedText Holding.Writable
  cases (record e.key.jwk e.scopesJson).unwritable? Json.Nesting.limit with
  | none => exact ⟨fun h => ⟨rfl, (Except.ok.inj h).symm⟩, fun h => congrArg Except.ok h.2.symm⟩
  | some f => exact iff_of_false nofun (fun h => nomatch h.1)

end Calls

section Refinement

open Holding (place registration hashField)

theorem add_map_registration (l : List Holding) (e : Holding) :
    Registry.add e.registration (l.map registration) =
      (Shelf.put (place false) e l).map registration := by
  induction l with
  | nil => rfl
  | cons d l ih =>
    have hat : d.registration.isAt e.registration.issuer e.registration.subject
        e.registration.keyId = decide (d.place false = e.place false) := isAt_registration
    rw [List.map_cons, Registry.add, hat, Shelf.put]
    by_cases h : d.place false = e.place false
    · rw [if_pos h, decide_eq_true h]
      rfl
    · rw [if_neg h, decide_eq_false h, ih]
      rfl

variable [Json.Nesting]

theorem putField_map_hashField {l : List Holding} (hl : ∀ e ∈ l, e.Sendable) (he : e.Sendable) :
    Cache.putField e.hashField (l.map hashField) = (Shelf.put (place true) e l).map hashField := by
  induction l with
  | nil => rfl
  | cons d l ih =>
    obtain ⟨hd, hl⟩ := List.forall_mem_cons.mp hl
    obtain ⟨keyId, hkey⟩ := Option.isSome_iff_exists.mp he.2
    have hname : e.hashField.name = keyId := congrArg (Option.getD · "") hkey
    have hat : Cache.isField e.hashField.hash e.hashField.name d.hashField =
        decide (d.place true = e.place true) := by
      refine (isField_hashField hd.2).trans ?_
      rw [hname, ← Text.toString?_eq_some.mp hkey]
      rfl
    rw [List.map_cons, Cache.putField, hat, Shelf.put]
    by_cases h : d.place true = e.place true
    · rw [if_pos h, decide_eq_true h]
      rfl
    · rw [if_neg h, decide_eq_false h, ih hl]
      rfl

def Holds (store : KeyStore) (cache : Cache) (l : List Holding) : Prop :=
  match store with
  | .memory registry => registry = l.map registration
  | .shared => cache.fields = l.map hashField ∧ ∀ e ∈ l, e.Sendable

def Takes (store : KeyStore) (e : Holding) : Prop :=
  e.key.keyId ≠ [] ∧ (store.isShared = true → e.Sendable)

instance (store : KeyStore) (e : Holding) : Decidable (store.Takes e) :=
  inferInstanceAs (Decidable (_ ∧ _))

theorem Holds.of_add (h : store.Holds cache l)
    (hadd : store.add cache (.str e.issuer) (.str e.subject) e.key.jwk (.arr e.scopesJson) =
      .ok (store', cache')) :
    store.Takes e ∧ store'.isShared = store.isShared ∧
      store'.Holds cache' (Shelf.put (place store.isShared) e l) := by
  obtain ⟨hid, members, hmembers, hadded⟩ := of_add_eq_ok hadd
  rw [e.key.named] at hid hadded
  have hne : e.key.keyId ≠ [] := by simpa [Json.isTruthy] using hid
  obtain rfl : e.scopesJson = members := Option.some.inj hmembers
  rcases hadded with ⟨registry, rfl, rfl, -⟩ | ⟨rfl, rfl, name, text, hname, htext, hset⟩
  · obtain rfl : registry = l.map registration := h
    exact ⟨⟨hne, nofun⟩, rfl, add_map_registration l e⟩
  · obtain rfl : e.key.keyId = name := Option.some.inj hname
    obtain ⟨hw, rfl⟩ := storedText_eq_ok.mp htext
    obtain ⟨-, s, hs, rfl⟩ := setField_eq_ok.mp hset
    have he : e.Sendable := ⟨hw, Option.isSome_iff_exists.mpr ⟨s, hs⟩⟩
    have hfield : e.hashField = ⟨hashName (.str e.issuer) (.str e.subject), s, e.hashField.value⟩ :=
      congrArg (HashField.mk _ · _) (congrArg (Option.getD · "") hs)
    refine ⟨⟨hne, fun _ => he⟩, rfl, ?_, fun d hd => ?_⟩
    · change Cache.putField ⟨_, s, _⟩ cache.fields = _
      rw [← hfield, h.1]
      exact putField_map_hashField h.2 he
    · rcases Shelf.mem_of_mem_put hd with rfl | hd
      · exact he
      · exact h.2 d hd

theorem Holds.of_remove (h : store.Holds cache l)
    (hremove : store.remove cache (.str issuer) (.str subject) (.str keyId) = .ok (store', cache')) :
    store'.isShared = store.isShared ∧ store'.Holds cache'
      (Shelf.change (place store.isShared) l
        (.clear (issuer.received store.isShared, subject.received store.isShared, keyId))) := by
  rcases of_remove_eq_ok hremove with ⟨registry, rfl, rfl, -⟩ | ⟨rfl, rfl, hr⟩
  · obtain rfl : registry = l.map registration := h
    refine ⟨rfl, ?_⟩
    change List.filter _ _ = List.map _ (List.filter _ _)
    rw [List.filter_map]
    simp only [Function.comp_def, isAt_registration, ne_eq, decide_not]
    rfl
  · obtain ⟨-, s, hs, rfl⟩ := removeField_eq_ok.mp hr
    refine ⟨rfl, ?_, fun e he => h.2 e (List.mem_filter.mp he).1⟩
    change List.filter (fun f => !Cache.isField _ s f) _ = List.map _ (List.filter _ _)
    rw [h.1, List.filter_map]
    refine congrArg _ (List.filter_congr fun e he => ?_)
    rw [Function.comp_apply, isField_hashField (h.2 e he).2, ← Text.toString?_eq_some.mp hs]
    exact (decide_not ..).symm

theorem exists_add (hup : cache.outage = none) (ht : store.Takes e) :
    ∃ kept, store.add cache (.str e.issuer) (.str e.subject) e.key.jwk (.arr e.scopesJson) =
      .ok kept := by
  obtain ⟨hne, ht⟩ := ht
  have hid : (Json.str e.key.keyId).isTruthy = true := by simpa [Json.isTruthy] using hne
  unfold add
  rw [e.key.named, hid]
  cases store with
  | memory registry => exact ⟨_, rfl⟩
  | shared =>
    obtain ⟨hw, hid⟩ := ht rfl
    obtain ⟨s, hs⟩ := Option.isSome_iff_exists.mp hid
    obtain ⟨after, hset⟩ : ∃ after, cache.setField (hashName (.str e.issuer) (.str e.subject))
        e.key.keyId e.hashField.value = .ok after := ⟨_, setField_eq_ok.mpr ⟨hup, s, hs, rfl⟩⟩
    refine ⟨(.shared, after), bind_eq_ok.mpr ⟨_, storedText_eq_ok.mpr ⟨hw, rfl⟩, ?_⟩⟩
    have hname : fieldName? (.str e.key.keyId) = some e.key.keyId := rfl
    rw [hname]
    dsimp only
    rw [hset]
    rfl

omit [Json.Nesting] in
theorem exists_remove (hup : cache.outage = none) (issuer subject : Text)
    (hid : store.Names keyId) :
    ∃ kept, store.remove cache (.str issuer) (.str subject) (.str keyId) = .ok kept := by
  cases store with
  | memory registry =>
    refine ⟨(.memory (registry.remove (.str issuer) (.str subject) (.str keyId)), cache), ?_⟩
    refine bind_eq_ok.mpr ⟨(), rfl, ?_⟩
    dsimp only
    split <;> rfl
  | shared =>
    obtain ⟨s, hs⟩ := Option.isSome_iff_exists.mp (hid rfl)
    obtain ⟨after, hr⟩ : ∃ after,
        cache.removeField (hashName (.str issuer) (.str subject)) keyId = .ok after :=
      ⟨_, removeField_eq_ok.mpr ⟨hup, s, hs, rfl⟩⟩
    refine ⟨(.shared, after), ?_⟩
    change (cache.removeField (hashName (.str issuer) (.str subject)) keyId).map _ = _
    rw [hr]
    rfl

omit [Json.Nesting] in
theorem remove_of_not_names (hup : cache.outage = none) (issuer subject : Json)
    (hid : ¬ store.Names keyId) :
    store.remove cache issuer subject (.str keyId) = .error ⟨.encoding, Utf.unencodable keyId⟩ := by
  obtain ⟨hshared, hhalf⟩ := Classical.not_imp.mp hid
  cases store with
  | memory registry => cases hshared
  | shared =>
    have hfield : cache.removeField (hashName issuer subject) keyId =
        .error ⟨.encoding, Utf.unencodable keyId⟩ := by
      unfold Cache.removeField Cache.reach Cache.fieldName
      rw [hup, Option.not_isSome_iff_eq_none.mp hhalf]
      rfl
    change (cache.removeField _ keyId).map _ = _
    rw [hfield]
    rfl

theorem readStored_hashField (cache : Cache) (hw : e.Writable) :
    readStored cache e.hashField.value = .ok (e.stored true) := by
  have hscopes : Json.AllProper e.scopesJson := Json.allProper_texts e.scopes
  have hp : (record e.key.jwk e.scopesJson).Proper :=
    ⟨(by decide : [Text.ofString "jwk", Text.ofString "scopes"].Nodup), e.key.proper, hscopes, trivial⟩
  have hmerged (scopes : List Text) : Json.mergedItems (scopes.map .str) =
      scopes.map fun scope => .str (scope.received true) := by
    induction scopes with
    | nil => rfl
    | cons scope scopes ih =>
      rw [List.map_cons, Json.mergedItems, ih]
      rfl
  unfold readStored
  rw [hashField, cache.readJson_text hp hw]
  have hspelled := e.key.ofJson_received true
  change ((Jwk.ofJson (.obj (e.key.jwk.fields.received true))).mapError _ >>= _) = _
  rw [hspelled]
  change Except.ok (⟨_, Json.mergedItems (e.scopes.map .str)⟩ : Stored) = _
  rw [hmerged]
  rfl

/-- What a store without a key answers when it is asked for it. The server cannot be asked for an
identifier with half of a pair in it. -/
def absence (store : KeyStore) (issuer subject keyId : Text) : Fault :=
  if store.Names keyId then unregistered (.str issuer) (.str subject) (.str keyId)
  else ⟨.encoding, Utf.unencodable keyId⟩

theorem Holds.names (h : store.Holds cache l) (he : e ∈ l) : store.Names e.key.keyId := by
  intro hshared
  cases store with
  | memory registry => cases hshared
  | shared => exact (h.2 e he).2

omit [Json.Nesting] in
theorem find?_map_registration (l : List Holding) (issuer subject keyId : Text) :
    Registry.find? (l.map registration) (.str issuer) (.str subject) (.str keyId) =
      (l.find? fun e => decide (e.place false = (issuer, subject, keyId))).map registration := by
  unfold Registry.find?
  rw [List.find?_map]
  simp only [Function.comp_def, isAt_registration]

theorem find?_map_hashField {name : String} (hl : ∀ e ∈ l, e.Sendable)
    (hname : keyId.toString? = some name) :
    (l.map hashField).find? (Cache.isField (hashName (.str issuer) (.str subject)) name) =
      (l.find? fun e =>
        decide (e.place true = (issuer.merged, subject.merged, keyId))).map hashField := by
  rw [List.find?_map]
  refine congrArg (Option.map _) (List.find?_congr fun e he => ?_)
  rw [Function.comp_apply, isField_hashField (hl e he).2, ← Text.toString?_eq_some.mp hname]

theorem find?_place_eq_none {i s : Text} (hl : ∀ e ∈ l, e.Sendable)
    (hhalf : keyId.toString? = none) :
    (l.find? fun e => decide (e.place true = (i, s, keyId))) = none := by
  refine List.find?_eq_none.mpr fun e he hplace => ?_
  obtain ⟨-, -, rfl⟩ : _ ∧ _ ∧ _ := by simpa [place] using hplace
  have hname := (hl e he).2
  rw [hhalf] at hname
  cases hname

theorem Holds.find (h : store.Holds cache l) (hup : cache.outage = none)
    (issuer subject keyId : Text) : store.find cache (.str issuer) (.str subject) (.str keyId) =
      match l.find? fun e => decide (e.place store.isShared =
        (issuer.received store.isShared, subject.received store.isShared, keyId)) with
      | some e => .ok (e.stored store.isShared)
      | none => .error (store.absence issuer subject keyId) := by
  cases store with
  | memory registry =>
    obtain rfl : registry = l.map registration := h
    unfold KeyStore.find
    dsimp only
    rw [find?_map_registration]
    change _ = match l.find? fun e => decide (e.place false = (issuer, subject, keyId)) with
      | some e => _
      | none => _
    cases l.find? fun e => decide (e.place false = (issuer, subject, keyId)) <;> rfl
  | shared =>
    change (cache.field? (hashName (.str issuer) (.str subject)) keyId >>= _) =
      match l.find? fun e => decide (e.place true = (issuer.merged, subject.merged, keyId)) with
      | some e => _
      | none => _
    have hfield := field?_eq (hashName (.str issuer) (.str subject)) keyId hup
    unfold absence
    cases hs : keyId.toString? with
    | none =>
      have hhalf : ¬ KeyStore.shared.Names keyId := fun h => by simpa [hs] using h rfl
      rw [hs] at hfield
      rw [hfield, find?_place_eq_none h.2 hs, if_neg hhalf]
      rfl
    | some s =>
      have hwhole : KeyStore.shared.Names keyId := fun _ => by rw [hs]; rfl
      rw [hs] at hfield
      rw [hfield, if_pos hwhole]
      dsimp only
      rw [h.1, find?_map_hashField h.2 hs]
      cases he : l.find? fun e =>
          decide (e.place true = (issuer.merged, subject.merged, keyId)) with
      | none => rfl
      | some e => exact readStored_hashField cache (h.2 e (List.mem_of_find?_eq_some he)).1

omit [Json.Nesting] in
theorem keysOf_map_registration (l : List Holding) (issuer subject : Text) :
    Registry.keysOf (l.map registration) (.str issuer) (.str subject) =
      (l.filter (·.isFor false issuer subject)).map (·.key.jwk) := by
  unfold Registry.keysOf
  rw [List.filter_map, List.map_map]
  rfl

omit [Json.Nesting] in
theorem fieldsOf_eq (hup : cache.outage = none) (hfields : cache.fields = l.map hashField)
    (issuer subject : Text) : cache.fieldsOf (hashName (.str issuer) (.str subject)) =
      .ok ((l.filter (·.isFor true issuer subject)).map hashField) := by
  unfold Cache.fieldsOf Cache.reach
  rw [hup, hfields, List.filter_map]
  simp only [Function.comp_def, hash_hashField]
  rfl

theorem mergeSort_map_hashField (hl : ∀ e ∈ l, e.Sendable) (issuer subject : Text) :
    ((l.filter (·.isFor true issuer subject)).map hashField).mergeSort
      (fun a b => decide (a.name ≤ b.name)) =
        (Holding.listing l true issuer subject).map hashField := by
  symm
  refine List.map_mergeSort fun a ha b hb => ?_
  obtain ⟨i, hi⟩ := Option.isSome_iff_exists.mp (hl a (List.mem_filter.mp ha).1).2
  obtain ⟨j, hj⟩ := Option.isSome_iff_exists.mp (hl b (List.mem_filter.mp hb).1).2
  change a.key.keyId.isUpTo b.key.keyId =
    decide (a.key.keyId.toString?.getD "" ≤ b.key.keyId.toString?.getD "")
  rw [hi, hj, Text.toString?_eq_some.mp hi, Text.toString?_eq_some.mp hj]
  exact Text.isUpTo_ofString i j

theorem Holds.list (h : store.Holds cache l) (hup : cache.outage = none) (issuer subject : Text) :
    store.list cache (.str issuer) (.str subject) =
      .ok ((Holding.listing l store.isShared issuer subject).map
        (·.key.jwk.received store.isShared)) := by
  cases store with
  | memory registry =>
    obtain rfl : registry = l.map registration := h
    change Except.ok (Registry.keysOf _ _ _) = _
    rw [keysOf_map_registration]
    rfl
  | shared =>
    change (cache.fieldsOf _ >>= fun fields => (fields.mergeSort _).mapM _) = _
    rw [fieldsOf_eq hup h.1]
    change (List.mergeSort _ _).mapM _ = _
    rw [mergeSort_map_hashField h.2, List.mapM_map]
    refine mapM_eq_ok fun e he => ?_
    change (readStored cache e.hashField.value).map _ = _
    rw [readStored_hashField cache (h.2 e (Holding.mem_listing.mp he).1).1]
    rfl

end Refinement

end KeyStore
end AssertionGrant
