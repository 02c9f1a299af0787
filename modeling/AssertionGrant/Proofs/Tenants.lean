import AssertionGrant.Proofs.Lockstep

/-! Registrations of one issuer and subject are no concern of another, if the store can tell them
apart. It keeps a share for each of them, from which all that is asked for them is answered, and a
call for others leaves the share as it was. So whatever others register or remove, a request fares as
before. The server cannot tell texts apart that differ in the halves of pairs only. -/

namespace AssertionGrant

inductive KeyChange where
  | add (key : Jwk) (scopes : Json)
  | remove (keyId : Json)

structure KeyCall where
  issuer : Text
  subject : Text
  change : KeyChange

def KeyCall.apply [Json.Nesting] (kept : KeyStore × Cache) (call : KeyCall) : KeyStore × Cache :=
  (match call.change with
  | .add key scopes => kept.1.add kept.2 (.str call.issuer) (.str call.subject) key scopes
  | .remove keyId => kept.1.remove kept.2 (.str call.issuer) (.str call.subject) keyId).toOption.getD
    kept

section Names

variable {issuer subject issuer' subject' : Text} {r : Registration}

theorem Json.isSameName_str {v : Json} {text : Text} :
    v.isSameName (.str text) = true ↔ v = .str text := by
  cases v <;> simp [isSameName, number?]

theorem Registration.isFor_iff :
    r.isFor (.str issuer) (.str subject) = true ↔ r.issuer = .str issuer ∧ r.subject = .str subject := by
  unfold isFor
  rw [Bool.and_eq_true, Json.isSameName_str, Json.isSameName_str]

theorem Registration.not_isFor (h : r.isFor (.str issuer') (.str subject') = true)
    (hne : (issuer', subject') ≠ (issuer, subject)) :
    r.isFor (.str issuer) (.str subject) = false := by
  obtain ⟨hi, hs⟩ := isFor_iff.mp h
  refine Bool.eq_false_iff.mpr fun h' => hne ?_
  obtain ⟨hi', hs'⟩ := isFor_iff.mp h'
  rw [Json.str.inj (hi.symm.trans hi'), Json.str.inj (hs.symm.trans hs')]

theorem Registration.isFor_of_isAt {keyId : Json}
    (h : r.isAt (.str issuer) (.str subject) keyId = true) :
    r.isFor (.str issuer) (.str subject) = true := (Bool.and_eq_true_iff.mp h).1

end Names

namespace KeyStore

variable {issuer subject issuer' subject' : Text}

/-- The issuer and the subject as far as a store can tell them from others. -/
def tenant (store : KeyStore) (issuer subject : Text) : Text × Text :=
  (issuer.received store.isShared, subject.received store.isShared)

theorem tenant_eq_iff : shared.tenant issuer' subject' = shared.tenant issuer subject ↔
    hashName (.str issuer') (.str subject') = hashName (.str issuer) (.str subject) :=
  Prod.mk.injEq .. ▸ hashName_eq_iff.symm

def share (issuer subject : Text) : KeyStore × Cache → Registry ⊕ List HashField
  | (.memory registry, _) => .inl (registry.filter (·.isFor (.str issuer) (.str subject)))
  | (.shared, cache) =>
    .inr (cache.fields.filter (·.hash = hashName (.str issuer) (.str subject)))

section Answers

variable {registry : Registry} {fields : List HashField}

theorem find?_filter_isFor (keyId : Json) :
    Registry.find? (registry.filter (·.isFor (.str issuer) (.str subject))) (.str issuer)
        (.str subject) keyId =
      registry.find? (.str issuer) (.str subject) keyId := by
  unfold Registry.find?
  rw [List.find?_filter]
  congr 1
  funext r
  unfold Registration.isAt
  simp

theorem find?_filter_hash (name hash : String) :
    (fields.filter (·.hash = hash)).find? (Cache.isField hash name) =
      fields.find? (Cache.isField hash name) := by
  rw [List.find?_filter]
  congr 1
  funext f
  unfold Cache.isField
  simp [beq_eq_decide]

variable {store store' : KeyStore} {cache cache' : Cache}

theorem share_cases (h : share issuer subject (store', cache') = share issuer subject (store, cache)) :
    (∃ registry registry' : Registry, store = .memory registry ∧ store' = .memory registry' ∧
      registry'.filter (·.isFor (.str issuer) (.str subject)) =
        registry.filter (·.isFor (.str issuer) (.str subject))) ∨
    store = .shared ∧ store' = .shared ∧
      cache'.fields.filter (·.hash = hashName (.str issuer) (.str subject)) =
        cache.fields.filter (·.hash = hashName (.str issuer) (.str subject)) := by
  cases store <;> cases store'
  · exact .inl ⟨_, _, rfl, rfl, Sum.inl.inj h⟩
  · cases h
  · cases h
  · exact .inr ⟨rfl, rfl, Sum.inr.inj h⟩

variable [Json.Nesting]

theorem readStored_congr (h : cache'.givesText = cache.givesText) (text : String) :
    readStored cache' text = readStored cache text := by
  unfold readStored Cache.readJson
  rw [h]

theorem find_of_share
    (h : share issuer subject (store', cache') = share issuer subject (store, cache))
    (hup : cache'.outage = cache.outage) (htext : cache'.givesText = cache.givesText)
    (keyId : Json) : store'.find cache' (.str issuer) (.str subject) keyId =
      store.find cache (.str issuer) (.str subject) keyId := by
  rcases share_cases h with ⟨registry, registry', rfl, rfl, hr⟩ | ⟨rfl, rfl, hf⟩
  · unfold find
    dsimp only
    rw [← find?_filter_isFor, hr, find?_filter_isFor]
  · have hread := readStored_congr htext
    have hfield (name : String) :
        cache'.fields.find? (Cache.isField (hashName (.str issuer) (.str subject)) name) =
          cache.fields.find? (Cache.isField (hashName (.str issuer) (.str subject)) name) := by
      rw [← find?_filter_hash, hf, find?_filter_hash]
    unfold find Cache.field? Cache.reach
    dsimp only
    simp only [hread, hfield, hup]

theorem list_of_share
    (h : share issuer subject (store', cache') = share issuer subject (store, cache))
    (hup : cache'.outage = cache.outage) (htext : cache'.givesText = cache.givesText) :
    store'.list cache' (.str issuer) (.str subject) =
      store.list cache (.str issuer) (.str subject) := by
  rcases share_cases h with ⟨registry, registry', rfl, rfl, hr⟩ | ⟨rfl, rfl, hf⟩
  · unfold list Registry.keysOf
    dsimp only
    rw [hr]
  · have hread := readStored_congr htext
    unfold list Cache.fieldsOf Cache.reach
    dsimp only
    simp only [hread]
    rw [hup, hf]

end Answers

section Calls

variable {registry : Registry} {fields : List HashField} {r : Registration} {hash : String}

theorem filter_add (hr : r.isFor (.str issuer') (.str subject') = true)
    (hne : (issuer', subject') ≠ (issuer, subject)) :
    (registry.add r).filter (·.isFor (.str issuer) (.str subject)) =
      registry.filter (·.isFor (.str issuer) (.str subject)) := by
  have hr' := Registration.not_isFor hr hne
  obtain ⟨hi, hs⟩ := Registration.isFor_iff.mp hr
  induction registry with
  | nil => simp [Registry.add, hr']
  | cons d rest ih =>
    unfold Registry.add
    split
    · next hat =>
      rw [hi, hs] at hat
      have hd := Registration.not_isFor (Registration.isFor_of_isAt hat) hne
      rw [List.filter_cons, List.filter_cons, hr', hd, if_neg Bool.false_ne_true,
        if_neg Bool.false_ne_true]
    · rw [List.filter_cons, List.filter_cons, ih]

theorem filter_remove (hne : (issuer', subject') ≠ (issuer, subject)) (keyId : Json) :
    (registry.remove (.str issuer') (.str subject') keyId).filter
        (·.isFor (.str issuer) (.str subject)) =
      registry.filter (·.isFor (.str issuer) (.str subject)) := by
  unfold Registry.remove
  rw [List.filter_filter]
  refine List.filter_congr fun d _ => ?_
  cases hat : d.isAt (.str issuer') (.str subject') keyId with
  | true => simp [Registration.not_isFor (Registration.isFor_of_isAt hat) hne]
  | false => simp

theorem filter_putField {field : HashField} (h : field.hash ≠ hash) :
    (Cache.putField field fields).filter (·.hash = hash) = fields.filter (·.hash = hash) := by
  induction fields with
  | nil => simp [Cache.putField, h]
  | cons f rest ih =>
    unfold Cache.putField
    split
    · next hat =>
      have hf : f.hash = field.hash := by
        unfold Cache.isField at hat
        simpa using (Bool.and_eq_true_iff.mp hat).1
      simp [h, hf]
    · rw [List.filter_cons, List.filter_cons, ih]

theorem filter_removeField {other name : String} (h : other ≠ hash) :
    (fields.filter fun f => !Cache.isField other name f).filter (·.hash = hash) =
      fields.filter (·.hash = hash) := by
  rw [List.filter_filter]
  refine List.filter_congr fun f _ => ?_
  by_cases hf : f.hash = hash
  · have : Cache.isField other name f = false := by
      simp [Cache.isField, hf, Ne.symm h]
    simp [this]
  · simp [hf]

variable {store store' : KeyStore} {cache cache' : Cache}

/-! A call changes nothing on the server but hashes. -/

theorem fields_of_remove {issuer subject keyId : Json}
    (h : store.remove cache issuer subject keyId = .ok (store', cache')) :
    ∃ fields, cache' = { cache with fields } := by
  obtain ⟨_, -, -, rfl⟩ | ⟨-, -, hremove⟩ := of_remove_eq_ok h
  · exact ⟨_, rfl⟩
  · obtain ⟨-, _, -, e⟩ := removeField_eq_ok.mp hremove
    exact ⟨_, e⟩

variable [Json.Nesting]

theorem fields_of_add {issuer subject scopes : Json} {key : Jwk}
    (h : store.add cache issuer subject key scopes = .ok (store', cache')) :
    ∃ fields, cache' = { cache with fields } := by
  obtain ⟨-, _, -, ⟨_, -, -, rfl⟩ | ⟨-, -, _, _, -, -, hset⟩⟩ := of_add_eq_ok h
  · exact ⟨_, rfl⟩
  · obtain ⟨-, _, -, e⟩ := setField_eq_ok.mp hset
    exact ⟨_, e⟩

end Calls

section Foreign

variable {store store' : KeyStore} {cache cache' : Cache}

structure Spares (issuer subject : Text) (kept kept' : KeyStore × Cache) : Prop where
  share : share issuer subject kept' = share issuer subject kept
  cache : ∃ fields, kept'.2 = { kept.2 with fields }

section Asked

variable {kept kept' : KeyStore × Cache}

theorem Spares.texts {store store' : KeyStore} {cache cache' : Cache}
    (h : Spares issuer subject (store, cache) (store', cache')) (texts : List CachedText) :
    Spares issuer subject (store, { cache with texts }) (store', { cache' with texts }) := by
  obtain ⟨fields, hf⟩ := h.cache
  obtain rfl : cache' = { cache with fields } := hf
  have hshare := h.share
  refine ⟨?_, fields, rfl⟩
  cases store <;> cases store' <;> exact hshare

variable [Json.Nesting]

theorem Spares.find (h : Spares issuer subject kept kept') (keyId : Json) :
    kept'.1.find kept'.2 (.str issuer) (.str subject) keyId =
      kept.1.find kept.2 (.str issuer) (.str subject) keyId := by
  obtain ⟨fields, hf⟩ := h.cache
  exact find_of_share h.share (by rw [hf]) (by rw [hf]) keyId

theorem Spares.list (h : Spares issuer subject kept kept') :
    kept'.1.list kept'.2 (.str issuer) (.str subject) =
      kept.1.list kept.2 (.str issuer) (.str subject) := by
  obtain ⟨fields, hf⟩ := h.cache
  exact list_of_share h.share (by rw [hf]) (by rw [hf])

end Asked

theorem Spares.refl (issuer subject : Text) (kept : KeyStore × Cache) :
    Spares issuer subject kept kept := ⟨rfl, kept.2.fields, rfl⟩

theorem Spares.trans {kept' kept'' : KeyStore × Cache} (h : Spares issuer subject kept kept')
    (h' : Spares issuer subject kept' kept'') : Spares issuer subject kept kept'' := by
  obtain ⟨fields, hf⟩ := h.cache
  obtain ⟨fields', hf'⟩ := h'.cache
  exact ⟨h'.share.trans h.share, fields', by rw [hf', hf]⟩

theorem Spares.kind {kept kept' : KeyStore × Cache} (h : Spares issuer subject kept kept') :
    kept'.1.isShared = kept.1.isShared := by
  rcases share_cases h.share with ⟨_, _, e, e', -⟩ | ⟨e, e', -⟩
  · rw [e, e']
    rfl
  · rw [e, e']

theorem spares_remove {keyId : Json}
    (hne : store.tenant issuer' subject' ≠ store.tenant issuer subject)
    (h : store.remove cache (.str issuer') (.str subject') keyId = .ok (store', cache')) :
    Spares issuer subject (store, cache) (store', cache') := by
  refine ⟨?_, fields_of_remove h⟩
  obtain ⟨registry, rfl, rfl, rfl⟩ | ⟨rfl, rfl, hremove⟩ := of_remove_eq_ok h
  · exact congrArg Sum.inl (filter_remove hne keyId)
  · obtain ⟨-, _, -, rfl⟩ := removeField_eq_ok.mp hremove
    exact congrArg Sum.inr (filter_removeField (tenant_eq_iff.not.mp hne))

variable [Json.Nesting] {kept : KeyStore × Cache} {call : KeyCall}

theorem spares_add {key : Jwk} {scopes : Json}
    (hne : store.tenant issuer' subject' ≠ store.tenant issuer subject)
    (h : store.add cache (.str issuer') (.str subject') key scopes = .ok (store', cache')) :
    Spares issuer subject (store, cache) (store', cache') := by
  refine ⟨?_, fields_of_add h⟩
  obtain ⟨-, members, -, ⟨registry, rfl, rfl, rfl⟩ | ⟨rfl, rfl, name, text, -, -, hset⟩⟩ :=
    of_add_eq_ok h
  · have hown : Registration.isFor (.str issuer') (.str subject')
        ⟨.str issuer', .str subject', key.id, key, members⟩ = true :=
      Registration.isFor_iff.mpr ⟨rfl, rfl⟩
    exact congrArg Sum.inl (filter_add hown hne)
  · obtain ⟨-, _, -, rfl⟩ := setField_eq_ok.mp hset
    exact congrArg Sum.inr (filter_putField (tenant_eq_iff.not.mp hne))

theorem spares_apply (hne : kept.1.tenant call.issuer call.subject ≠ kept.1.tenant issuer subject) :
    Spares issuer subject kept (call.apply kept) := by
  obtain ⟨issuer', subject', change⟩ := call
  unfold KeyCall.apply
  cases change with
  | add key scopes =>
    dsimp only
    cases h : kept.1.add kept.2 (.str issuer') (.str subject') key scopes with
    | error f => exact .refl _ _ _
    | ok kept' => exact spares_add hne h
  | remove keyId =>
    dsimp only
    cases h : kept.1.remove kept.2 (.str issuer') (.str subject') keyId with
    | error f => exact .refl _ _ _
    | ok kept' => exact spares_remove hne h

theorem spares_foldl {calls : List KeyCall} (kept : KeyStore × Cache)
    (h : ∀ call ∈ calls,
      kept.1.tenant call.issuer call.subject ≠ kept.1.tenant issuer subject) :
    Spares issuer subject kept (calls.foldl KeyCall.apply kept) := by
  induction calls generalizing kept with
  | nil => exact .refl _ _ _
  | cons call calls ih =>
    obtain ⟨hcall, hcalls⟩ := List.forall_mem_cons.mp h
    have hfirst := spares_apply hcall
    refine hfirst.trans (ih _ ?_)
    unfold tenant at hcalls ⊢
    rw [hfirst.kind]
    exact hcalls

/-- A call for an issuer and a subject that the store takes for others is a call for those. -/
theorem apply_of_tenant (kept : KeyStore × Cache)
    (h : kept.1.tenant call.issuer call.subject = kept.1.tenant issuer subject) :
    call.apply kept = { call with issuer, subject }.apply kept := by
  obtain ⟨store, cache⟩ := kept
  obtain ⟨issuer', subject', change⟩ := call
  cases store with
  | memory registry =>
    obtain ⟨rfl, rfl⟩ : issuer' = issuer ∧ subject' = subject := Prod.mk.inj h
    rfl
  | shared =>
    have hname : hashName (.str issuer') (.str subject') = hashName (.str issuer) (.str subject) :=
      tenant_eq_iff.mp h
    unfold KeyCall.apply
    cases change with
    | add key scopes =>
      dsimp only
      unfold add
      rw [hname]
    | remove keyId =>
      dsimp only
      unfold remove
      rw [hname]

end Foreign
end KeyStore

variable [Json.Nesting]

def Pairing.sparing (now : Instant) (issuer subject : Text) : Pairing where
  likeness := .same
  now := now
  stores a b := KeyStore.Spares issuer subject (a.keys, a.records.cache) (b.keys, b.records.cache) ∧
    b.records.store = a.records.store
  tenant i s := i = issuer ∧ s = subject
  jti _ := True
  found := by
    rintro a b _ _ ⟨h, -⟩ ⟨rfl, rfl⟩ keyId
    unfold Stores.found
    rw [h.find keyId]
    exact .refl _
  listed := by
    rintro a b _ _ ⟨h, -⟩ ⟨rfl, rfl⟩
    unfold Stores.listed
    rw [h.list]
    exact .refl _
  replied := by
    rintro a b call ⟨h, hstore⟩ -
    obtain ⟨fields, hf⟩ := h.cache
    have hcache : b.records.cache = { a.records.cache with fields } := hf
    obtain ⟨answer, store, texts, e, e'⟩ :=
      Stores.replied_beside now hstore (by rw [hcache]) (by rw [hcache]) call
    rw [e, e']
    exact ⟨.refl _, h.texts texts, rfl⟩

def Site.registering (s : Site) (calls : List KeyCall) : Site :=
  { s with
    keys := (calls.foldl KeyCall.apply (s.keys, s.cache)).1
    cache := (calls.foldl KeyCall.apply (s.keys, s.cache)).2 }

/-- The assertion of a request claims an issuer and a subject, whether or not they signed it. -/
def AccessRequest.SpeaksFor (r : AccessRequest) (issuer subject : Text) : Prop :=
  ∃ raw t fields, Grant.assertionOf r = .ok raw ∧ Assertion.parse raw = .ok t ∧
    Assertion.readClaims t = .ok fields ∧ fields.get? "iss" = some (.str issuer) ∧
    fields.get? "sub" = some (.str subject)

section Runs

variable {issuer subject : Text} {r : AccessRequest} {s : Site} {calls : List KeyCall}

theorem AccessRequest.SpeaksFor.within {now : Instant} {raw : String}
    (h : r.SpeaksFor issuer subject) (hraw : Grant.assertionOf r = .ok raw) :
    Assertion.Within (.sparing now issuer subject) raw where
  tenant t i u ht hnamed := by
    obtain ⟨raw', t', fields, hraw', ht', hread, hissuer, hsubject⟩ := h
    obtain rfl := Except.ok.inj (hraw.symm.trans hraw')
    obtain rfl := Except.ok.inj (ht.symm.trans ht')
    obtain ⟨fields', hread', ⟨hi, -⟩, ⟨hu, -⟩⟩ := Grant.issuerAndSubject_eq_ok.mp hnamed
    obtain rfl := Except.ok.inj (hread'.symm.trans (mapError_eq_ok.mp hread))
    rw [hissuer] at hi
    rw [hsubject] at hu
    exact ⟨(Json.str.inj (Option.some.inj hi)).symm, (Json.str.inj (Option.some.inj hu)).symm⟩
  jti _ _ _ := trivial

theorem Site.paired_registering (h : ∀ call ∈ calls,
      s.keys.tenant call.issuer call.subject ≠ s.keys.tenant issuer subject) :
    Site.Paired (.sparing s.now issuer subject) s (s.registering calls) :=
  ⟨rfl, rfl, rfl, rfl, rfl, rfl, .refl _, trivial, KeyStore.spares_foldl _ h, rfl⟩

/-- Whatever is registered or removed for others whom the store can tell from an issuer and a subject,
all that it is asked for these is answered as before, and a request whose assertion speaks for them
fares as before. Others whom it cannot tell from them are the same to it: a call for those is a call
for these. -/
theorem Grant.tenants_isolated (g : Grant) (h : ∀ call ∈ calls,
      s.keys.tenant call.issuer call.subject ≠ s.keys.tenant issuer subject) :
    ((∀ keyId,
        (s.registering calls).keyAt issuer subject keyId = s.keyAt issuer subject keyId) ∧
      (s.registering calls).keysAt issuer subject = s.keysAt issuer subject ∧
      (∀ keyId,
        (s.registering calls).scopesAt issuer subject keyId = s.scopesAt issuer subject keyId) ∧
      ∀ r : AccessRequest, r.SpeaksFor issuer subject →
        (g.handled r (s.registering calls)).1 = (g.handled r s).1) ∧
    ∀ call : KeyCall, s.keys.tenant call.issuer call.subject = s.keys.tenant issuer subject →
      s.registering [call] = s.registering [{ call with issuer, subject }] := by
  have hspares := KeyStore.spares_foldl (s.keys, s.cache) h
  refine ⟨⟨fun keyId => ?_, ?_, fun keyId => ?_, fun r hr => ?_⟩, fun call hcall => ?_⟩
  · unfold Site.keyAt Site.registering
    dsimp only
    rw [hspares.find]
  · unfold Site.keysAt Site.registering
    dsimp only
    rw [hspares.list]
  · unfold Site.scopesAt Site.registering
    dsimp only
    rw [hspares.find]
  · obtain ⟨hresult, hrequest, -⟩ := g.handled_parallel (fun _ hraw => hr.within hraw)
      (Site.paired_registering h)
    exact congrArg₂ Handled.mk hrequest hresult.eq
  · have hsame := KeyStore.apply_of_tenant (s.keys, s.cache) hcall
    unfold Site.registering
    rw [List.foldl_cons, List.foldl_nil, List.foldl_cons, List.foldl_nil, hsame]

end Runs
end AssertionGrant

namespace AssertionGrant.Specimen

theorem speaksFor_request : request.SpeaksFor "i" "s" := by
  have h : (((Assertion.parse raw).toOption.bind fun t => (Assertion.readClaims t).toOption).map
      fun fields => ((fields.get? "iss").bind Json.str?, (fields.get? "sub").bind Json.str?)) =
        some (some (.ofString "i"), some (.ofString "s")) := by decide +kernel
  have hstr {v : Option Json} {text : Text} (hv : v.bind Json.str? = some text) :
      v = some (.str text) := by
    obtain ⟨w, rfl, hw⟩ := Option.bind_eq_some_iff.mp hv
    cases w <;> cases hw
    rfl
  have hok {ε α : Type} {x : Except ε α} {a : α} (hx : x.toOption = some a) : x = .ok a := by
    cases x <;> cases hx
    rfl
  obtain ⟨fields, hfields, hnames⟩ := Option.map_eq_some_iff.mp h
  obtain ⟨t, ht, hread⟩ := Option.bind_eq_some_iff.mp hfields
  obtain ⟨hissuer, hsubject⟩ := Prod.mk.inj hnames
  exact ⟨raw, t, fields, rfl, hok ht, hok hread, hstr hissuer, hstr hsubject⟩

def sharedSite : Site where
  now := ⟨0⟩
  keys := .shared
  cache := { fields := [⟨KeyStore.hashName (.str "i") (.str "s"), "k",
    (KeyStore.record key []).text Json.spaced⟩] }

def strangers : List KeyCall :=
  [⟨"i\", \"s", "", .add key (.arr [])⟩, ⟨"", "is", .add key (.arr [])⟩,
    ⟨"is", "", .remove (.str "k")⟩]

theorem request_isolated :
    (∀ call ∈ strangers,
        sharedSite.keys.tenant call.issuer call.subject ≠ sharedSite.keys.tenant "i" "s") ∧
      request.SpeaksFor "i" "s" ∧
      (grant.handled request (sharedSite.registering strangers)).1.result = .ok () := by
  have hforeign : ∀ call ∈ strangers,
      sharedSite.keys.tenant call.issuer call.subject ≠ sharedSite.keys.tenant "i" "s" := by decide
  have haccepted : (grant.handled request sharedSite).1.result = .ok () := by decide +kernel
  obtain ⟨⟨-, -, -, hsame⟩, -⟩ := grant.tenants_isolated hforeign
  refine ⟨hforeign, speaksFor_request, ?_⟩
  rw [hsame request speaksFor_request]
  exact haccepted

end AssertionGrant.Specimen
