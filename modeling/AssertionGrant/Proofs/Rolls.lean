import AssertionGrant.Proofs.Holdings
import AssertionGrant.Proofs.Signatures

/-! The public keys that a store holds after any sequence of calls that went through. Whether it keeps
them in memory or on the shared server, it answers from the roll of what was registered and not
removed since, as it came to the store: on the server with the halves of pairs joined. -/

namespace AssertionGrant

structure PublicKey extends NamedKey where
  isPublic : jwk.material.IsPublic

structure Entry where
  issuer : Text
  subject : Text
  key : PublicKey
  scopes : List Text

namespace Entry

def isFor (shared : Bool) (issuer subject : Text) (e : Entry) : Bool :=
  e.issuer == issuer.received shared && e.subject == subject.received shared

def isAt (shared : Bool) (issuer subject keyId : Text) (e : Entry) : Bool :=
  e.isFor shared issuer subject && e.key.keyId == keyId

def place (e : Entry) : Text × Text × Text := (e.issuer, e.subject, e.key.keyId)

def scopesJson (e : Entry) : List Json := e.scopes.map .str

def holding (e : Entry) : Holding := ⟨e.issuer, e.subject, e.key.toNamedKey, e.scopes⟩

def received (shared : Bool) (e : Entry) : Entry where
  issuer := e.issuer.received shared
  subject := e.subject.received shared
  key := { e.key.toNamedKey.received shared with isPublic := e.key.isPublic }
  scopes := e.scopes.map (·.received shared)

variable {shared : Bool} {issuer subject keyId : Text} {e : Entry}

theorem isFor_iff : e.isFor shared issuer subject = true ↔
    e.issuer = issuer.received shared ∧ e.subject = subject.received shared := by
  unfold isFor
  rw [Bool.and_eq_true, beq_iff_eq, beq_iff_eq]

theorem isAt_iff : e.isAt shared issuer subject keyId = true ↔
    e.place = (issuer.received shared, subject.received shared, keyId) := by
  unfold isAt place
  rw [Bool.and_eq_true, isFor_iff, beq_iff_eq, Prod.mk.injEq, Prod.mk.injEq, and_assoc]

end Entry

abbrev Roll := List Entry

namespace Roll

def put (roll : Roll) (e : Entry) : Roll := Shelf.put Entry.place e roll

def drop (roll : Roll) (shared : Bool) (issuer subject keyId : Text) : Roll :=
  roll.filter fun e => !e.isAt shared issuer subject keyId

def find? (roll : Roll) (shared : Bool) (issuer subject keyId : Text) : Option Entry :=
  List.find? (·.isAt shared issuer subject keyId) roll

def listing (roll : Roll) (shared : Bool) (issuer subject : Text) : List Entry :=
  if shared then (roll.filter (·.isFor shared issuer subject)).mergeSort fun a b =>
    a.key.keyId.isUpTo b.key.keyId
  else roll.filter (·.isFor shared issuer subject)

def Distinct (roll : Roll) : Prop := (roll.map Entry.place).Nodup

variable {roll : Roll} {shared : Bool} {issuer subject : Text} {d e : Entry}

theorem Distinct.put (h : roll.Distinct) (e : Entry) : (roll.put e).Distinct := Shelf.nodup_put h e

theorem Distinct.drop (h : roll.Distinct) (shared : Bool) (issuer subject keyId : Text) :
    (roll.drop shared issuer subject keyId).Distinct :=
  h.sublist (List.filter_sublist.map _)

theorem find?_eq (roll : Roll) (shared : Bool) (issuer subject keyId : Text) :
    roll.find? shared issuer subject keyId = List.find? (fun e =>
      decide (e.place = (issuer.received shared, subject.received shared, keyId))) roll := by
  simp only [find?, ← Entry.isAt_iff, Bool.decide_eq_true]

theorem Distinct.find?_of_mem (h : roll.Distinct) (he : e ∈ roll)
    (hfor : e.isFor shared issuer subject = true) :
    roll.find? shared issuer subject e.key.keyId = some e := by
  obtain ⟨hi, hs⟩ := Entry.isFor_iff.mp hfor
  rw [find?_eq, ← hi, ← hs]
  exact (Shelf.find?_eq_some_iff h).mpr ⟨he, rfl⟩

theorem perm_listing (roll : Roll) (shared : Bool) (issuer subject : Text) :
    (roll.listing shared issuer subject).Perm (roll.filter (·.isFor shared issuer subject)) := by
  cases shared with
  | false => exact .refl _
  | true => exact List.mergeSort_perm _ _

theorem mem_listing (h : e ∈ roll.listing shared issuer subject) :
    e ∈ roll ∧ e.isFor shared issuer subject = true :=
  List.mem_filter.mp ((roll.perm_listing shared issuer subject).mem_iff.mp h)

end Roll

variable [Json.Nesting]

/-- A store of public keys, filled by calls that went through, and the roll of what they
registered. Whatever else happens on the shared server leaves the hashes alone. -/
inductive KeyStore.Filled : KeyStore → Cache → Roll → Prop where
  | inMemory (cache : Cache) : Filled (.memory []) cache []
  | onServer (cache : Cache) : cache.fields = [] → Filled .shared cache []
  | added {store store' : KeyStore} {cache cache' : Cache} {roll : Roll} (e : Entry) :
    Filled store cache roll →
    store.add cache (.str e.issuer) (.str e.subject) e.key.jwk (.arr e.scopesJson) =
      .ok (store', cache') →
    Filled store' cache' (roll.put (e.received store.isShared))
  | removed {store store' : KeyStore} {cache cache' : Cache} {roll : Roll}
      (issuer subject keyId : Text) :
    Filled store cache roll →
    store.remove cache (.str issuer) (.str subject) (.str keyId) = .ok (store', cache') →
    Filled store' cache' (roll.drop store.isShared issuer subject keyId)
  | elsewhere {store : KeyStore} {cache cache' : Cache} {roll : Roll} :
    Filled store cache roll → cache'.fields = cache.fields → Filled store cache' roll

namespace KeyStore

variable {store store' : KeyStore} {cache cache' : Cache} {roll : Roll} {l : List Entry} {e : Entry}
  {issuer subject keyId : Text}

structure Enters (store : KeyStore) (cache : Cache) (roll : Roll) (l : List Entry) : Prop where
  holds : store.Holds cache (l.map Entry.holding)
  roll : roll = l.map (Entry.received store.isShared)

theorem Enters.received (h : store.Enters cache roll l) (he : e ∈ l) :
    e.key.keyId.received store.isShared = e.key.keyId := by
  cases store with
  | memory registry => rfl
  | shared => exact Text.merged_of_toString? (h.holds.2 _ (List.mem_map_of_mem he)).2

theorem Enters.place (h : store.Enters cache roll l) (he : e ∈ l) :
    (e.received store.isShared).place = e.holding.place store.isShared :=
  congrArg (_, _, ·) (h.received he)

theorem Enters.of_add (h : store.Enters cache roll l)
    (hadd : store.add cache (.str e.issuer) (.str e.subject) e.key.jwk (.arr e.scopesJson) =
      .ok (store', cache')) :
    store'.Enters cache' (roll.put (e.received store.isShared))
      (Shelf.put (fun e => e.holding.place store.isShared) e l) := by
  obtain ⟨⟨-, htakes⟩, hshared, hholds⟩ := h.holds.of_add (e := e.holding) hadd
  have he : e.key.keyId.received store.isShared = e.key.keyId := by
    cases store with
    | memory registry => rfl
    | shared => exact Text.merged_of_toString? (htakes rfl).2
  constructor
  · rw [Shelf.map_put_eq (Holding.place store.isShared) fun _ _ => rfl]
    exact hholds
  · rw [hshared, Shelf.map_put_eq Entry.place, h.roll]
    · rfl
    · exact List.forall_mem_cons.mpr ⟨congrArg (_, _, ·) he, fun d hd => h.place hd⟩

theorem Enters.of_remove (h : store.Enters cache roll l)
    (hremove : store.remove cache (.str issuer) (.str subject) (.str keyId) = .ok (store', cache')) :
    store'.Enters cache' (roll.drop store.isShared issuer subject keyId)
      (l.filter fun e => !(e.received store.isShared).isAt store.isShared issuer subject keyId) := by
  obtain ⟨hshared, hholds⟩ := h.holds.of_remove hremove
  constructor
  · convert hholds using 1
    change _ = List.filter _ _
    rw [List.filter_map]
    refine congrArg _ (List.filter_congr fun d hd => ?_)
    rw [Bool.eq_iff_iff, Bool.not_eq_true', ← Bool.not_eq_true, Entry.isAt_iff, h.place hd]
    exact decide_eq_true_iff.symm
  · rw [hshared, h.roll]
    exact List.filter_map

theorem Enters.listing (h : store.Enters cache roll l) (issuer subject : Text) :
    (Holding.listing (l.map Entry.holding) store.isShared issuer subject).map
        (·.key.jwk.received store.isShared) =
      (roll.listing store.isShared issuer subject).map (·.key.jwk) := by
  have hholdings : (l.map Entry.holding).filter (·.isFor store.isShared issuer subject) =
      (l.filter (·.holding.isFor store.isShared issuer subject)).map Entry.holding := List.filter_map
  have hentries : roll.filter (·.isFor store.isShared issuer subject) =
      (l.filter (·.holding.isFor store.isShared issuer subject)).map
        (Entry.received store.isShared) := by
    rw [h.roll, List.filter_map]
    rfl
  unfold Holding.listing Roll.listing
  rw [hholdings, hentries]
  split
  · rw [← List.map_mergeSort (f := Entry.holding) fun _ _ _ _ => rfl,
      ← List.map_mergeSort (f := Entry.received store.isShared) fun a ha b hb => ?_, List.map_map,
      List.map_map]
    · rfl
    · change a.key.keyId.isUpTo b.key.keyId =
        (a.key.keyId.received store.isShared).isUpTo (b.key.keyId.received store.isShared)
      rw [h.received (List.mem_filter.mp ha).1, h.received (List.mem_filter.mp hb).1]
  · rw [List.map_map, List.map_map]
    rfl

theorem Filled.enters (h : Filled store cache roll) : ∃ l, store.Enters cache roll l := by
  -- The induction is on the calls that filled the store.
  induction h with
  | inMemory cache => exact ⟨[], rfl, rfl⟩
  | onServer cache hc => exact ⟨[], ⟨hc, nofun⟩, rfl⟩
  | added e _ hadd ih =>
    obtain ⟨l, hl⟩ := ih
    exact ⟨_, hl.of_add hadd⟩
  | removed issuer subject keyId _ hremove ih =>
    obtain ⟨l, hl⟩ := ih
    exact ⟨_, hl.of_remove hremove⟩
  | @elsewhere store cache cache' roll _ hf ih =>
    obtain ⟨l, hl⟩ := ih
    refine ⟨l, ?_, hl.roll⟩
    cases store with
    | memory registry => exact hl.holds
    | shared => exact ⟨hf.trans hl.holds.1, hl.holds.2⟩

theorem Filled.distinct (h : Filled store cache roll) : roll.Distinct := by
  induction h with
  | inMemory => exact List.nodup_nil
  | onServer => exact List.nodup_nil
  | added e _ _ ih => exact ih.put _
  | removed issuer subject keyId _ _ ih => exact ih.drop _ issuer subject keyId
  | elsewhere _ _ ih => exact ih

theorem Filled.names (h : Filled store cache roll) (he : e ∈ roll) : store.Names e.key.keyId := by
  obtain ⟨l, hl⟩ := h.enters
  rw [hl.roll] at he
  obtain ⟨d, hd, rfl⟩ := List.mem_map.mp he
  change store.Names (d.key.keyId.received store.isShared)
  rw [hl.received hd]
  exact hl.holds.names (e := d.holding) (List.mem_map_of_mem hd)

/-- Looking for a key finds what the roll has. -/
theorem Filled.find (h : Filled store cache roll) (hup : cache.outage = none)
    (issuer subject keyId : Text) : store.find cache (.str issuer) (.str subject) (.str keyId) =
      match roll.find? store.isShared issuer subject keyId with
      | some e => .ok ⟨e.key.jwk, e.scopesJson⟩
      | none => .error (store.absence issuer subject keyId) := by
  obtain ⟨l, hl⟩ := h.enters
  have hfind : roll.find? store.isShared issuer subject keyId =
      (l.find? fun e => decide (e.holding.place store.isShared =
        (issuer.received store.isShared, subject.received store.isShared, keyId))).map
          (Entry.received store.isShared) := by
    rw [Roll.find?_eq, hl.roll, List.find?_map]
    refine congrArg (Option.map _) (List.find?_congr fun e he => ?_)
    rw [Function.comp_apply, hl.place he]
  rw [hl.holds.find hup, hfind, List.find?_map, Function.comp_def]
  cases l.find? fun e => decide (e.holding.place store.isShared =
      (issuer.received store.isShared, subject.received store.isShared, keyId)) with
  | none => rfl
  | some e =>
    refine congrArg (fun scopes => Except.ok (Stored.mk _ scopes)) ?_
    exact (List.map_map (f := Text.received store.isShared) (g := Json.str)).symm

theorem Filled.list (h : Filled store cache roll) (hup : cache.outage = none)
    (issuer subject : Text) :
    store.list cache (.str issuer) (.str subject) =
      .ok ((roll.listing store.isShared issuer subject).map (·.key.jwk)) := by
  obtain ⟨l, hl⟩ := h.enters
  rw [hl.holds.list hup, hl.listing]

end KeyStore
end AssertionGrant
