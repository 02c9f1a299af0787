import AssertionGrant.Proofs.Tenants

/-! What a key store answers after any history of registrations and removals, whether they go through
or not, of keys of any kind. It finds the key that was last put into a place and not removed since,
and lists each of these once: from memory in the order in which their places were filled, from the
server in the order of their identifiers. -/

namespace AssertionGrant

abbrev Holding.Change := Shelf.Change Holding (Text × Text × Text)

namespace Holding.Change

def call : Holding.Change → KeyCall
  | .put e => ⟨e.issuer, e.subject, .add e.key.jwk (.arr e.scopesJson)⟩
  | .clear (issuer, subject, keyId) => ⟨issuer, subject, .remove (.str keyId)⟩

def received (shared : Bool) : Holding.Change → Holding.Change
  | .put e => .put e
  | .clear (issuer, subject, keyId) =>
    .clear (issuer.received shared, subject.received shared, keyId)

end Holding.Change

namespace KeyStore

variable {store store' : KeyStore} {cache cache' : Cache} {l : List Holding} {e : Holding}
  {kept kept' : KeyStore × Cache} {shared : Bool}

section Listing

/-- The order in which a store lists two keys after a history. -/
def Precedes (shared : Bool) (history : List Holding.Change) (d e : Holding) : Prop :=
  if shared then List.Lex (fun l m => l.code < m.code) d.key.keyId e.key.keyId
  else Shelf.Earlier (Holding.place false) history (d.place false) (e.place false)

theorem pairwise_sorted {issuer subject : Text} (h : (l.map (Holding.place true)).Nodup) :
    (Holding.listing l true issuer subject).Pairwise fun d e =>
      List.Lex (fun l m => l.code < m.code) d.key.keyId e.key.keyId := by
  have hsorted : (Holding.listing l true issuer subject).Pairwise fun d e =>
      d.key.keyId.isUpTo e.key.keyId = true := by
    refine List.pairwise_mergeSort (fun _ _ _ h h' => ?_) (fun d e => ?_) _
    · exact Text.isUpTo_trans h h'
    · exact Text.isUpTo_total d.key.keyId e.key.keyId
  have hdistinct : (Holding.listing l true issuer subject).Pairwise fun d e =>
      d.place true ≠ e.place true := by
    have hfilter := (List.pairwise_map.mp h).sublist
      (List.filter_sublist (p := fun e => e.isFor true issuer subject))
    exact (List.mergeSort_perm _ _).symm.pairwise hfilter fun hne => hne.symm
  refine (hsorted.and hdistinct).imp_of_mem fun {d e} hd he ⟨hle, hne⟩ => ?_
  obtain ⟨hdi, hds⟩ := Holding.isFor_iff.mp (Holding.mem_listing.mp hd).2
  obtain ⟨hei, hes⟩ := Holding.isFor_iff.mp (Holding.mem_listing.mp he).2
  refine Text.lex_of_isUpTo hle fun hsame => hne ?_
  unfold Holding.place
  rw [hdi, hds, hei, hes, hsame]

theorem pairwise_listing (shared : Bool) (history : List Holding.Change) (issuer subject : Text) :
    (Holding.listing (Shelf.after (Holding.place shared) history) shared issuer subject).Pairwise
      (Precedes shared history) := by
  cases shared with
  | false =>
    have hordered := (Shelf.filled_after (Holding.place false) history).2
    exact (List.pairwise_map.mp hordered).sublist List.filter_sublist
  | true => exact pairwise_sorted (Shelf.nodup_after (Holding.place true) history)

end Listing

variable [Json.Nesting]

def heeds (store : KeyStore) : Holding.Change → Bool
  | .put e => decide (store.Takes e)
  | .clear (_, _, keyId) => decide (store.Names keyId)

theorem heeds_congr (h : store'.isShared = store.isShared) (c : Holding.Change) :
    store'.heeds c = store.heeds c := by
  cases c with
  | put e =>
    refine decide_eq_decide.mpr ?_
    unfold Takes
    rw [h]
  | clear place =>
    refine decide_eq_decide.mpr ?_
    unfold Names
    rw [h]

omit [Json.Nesting] in
theorem absence_congr (h : store'.isShared = store.isShared) : store'.absence = store.absence := by
  cases store <;> cases store' <;> first | rfl | cases h

structure Reaches (store : KeyStore) (kept : KeyStore × Cache) (l : List Holding) : Prop where
  holds : kept.1.Holds kept.2 l
  kind : kept.1.isShared = store.isShared
  up : kept.2.outage = none

theorem Reaches.exists_add_iff (h : store.Reaches kept l) (e : Holding) :
    (∃ after, kept.1.add kept.2 (.str e.issuer) (.str e.subject) e.key.jwk (.arr e.scopesJson) =
      .ok after) ↔ store.Takes e := by
  have hkind : kept.1.Takes e ↔ store.Takes e := by
    unfold Takes
    rw [h.kind]
  rw [← hkind]
  constructor
  · rintro ⟨after, hadd⟩
    exact (h.holds.of_add hadd).1
  · exact exists_add h.up

theorem Reaches.apply (h : store.Reaches kept l) (c : Holding.Change) :
    store.Reaches (c.call.apply kept) (if store.heeds c = true then
      Shelf.change (Holding.place store.isShared) l (c.received store.isShared) else l) := by
  cases c with
  | put e =>
    have hheeds := h.exists_add_iff e
    unfold Holding.Change.call KeyCall.apply
    dsimp only
    cases hadd : kept.1.add kept.2 (.str e.issuer) (.str e.subject) e.key.jwk (.arr e.scopesJson) with
    | error f =>
      rw [if_neg fun ht => by simpa [hadd] using hheeds.mpr (of_decide_eq_true ht)]
      exact h
    | ok after =>
      obtain ⟨fields, hserver⟩ := fields_of_add hadd
      obtain ⟨-, hkind, hholds⟩ := h.holds.of_add hadd
      have hheeded : store.heeds (.put e) = true := decide_eq_true (hheeds.mp ⟨after, hadd⟩)
      rw [if_pos hheeded]
      rw [h.kind] at hholds
      exact ⟨hholds, hkind.trans h.kind, (congrArg Cache.outage hserver).trans h.up⟩
  | clear place =>
    obtain ⟨issuer, subject, keyId⟩ := place
    have hheeds : store.heeds (.clear (issuer, subject, keyId)) = true ↔ kept.1.Names keyId := by
      rw [← heeds_congr h.kind]
      exact decide_eq_true_iff
    unfold Holding.Change.call KeyCall.apply
    dsimp only
    by_cases hid : kept.1.Names keyId
    · obtain ⟨after, hremove⟩ := exists_remove h.up issuer subject hid
      obtain ⟨fields, hserver⟩ := fields_of_remove hremove
      obtain ⟨hkind, hholds⟩ := h.holds.of_remove hremove
      rw [hremove, if_pos (hheeds.mpr hid)]
      rw [h.kind] at hholds
      exact ⟨hholds, hkind.trans h.kind, (congrArg Cache.outage hserver).trans h.up⟩
    · rw [remove_of_not_names h.up (.str issuer) (.str subject) hid, if_neg (hheeds.not.mpr hid)]
      exact h

theorem Reaches.foldl (h : store.Reaches kept l) (history : List Holding.Change) :
    store.Reaches ((history.map Holding.Change.call).foldl KeyCall.apply kept)
      (((history.filter store.heeds).map (·.received store.isShared)).foldl
        (Shelf.change (Holding.place store.isShared)) l) := by
  induction history generalizing kept l with
  | nil => exact h
  | cons c history ih =>
    have hnext := ih (h.apply c)
    rw [List.filter_cons]
    split at hnext
    · next hheeds =>
      rw [if_pos hheeds]
      exact hnext
    · next hheeds =>
      rw [if_neg hheeds]
      exact hnext

section Answers

variable {history : List Holding.Change}

theorem Reaches.find_of_some {issuer subject keyId : Text} (h : store.Reaches kept l)
    (he : (l.find? fun e => decide (e.place store.isShared =
      (issuer.received store.isShared, subject.received store.isShared, keyId))) = some e) :
    kept.1.find kept.2 (.str issuer) (.str subject) (.str keyId) =
      .ok (e.stored store.isShared) := by
  have hfind := h.holds.find h.up issuer subject keyId
  rw [h.kind, he] at hfind
  exact hfind

theorem Reaches.find_of_none {issuer subject keyId : Text} (h : store.Reaches kept l)
    (he : (l.find? fun e => decide (e.place store.isShared =
      (issuer.received store.isShared, subject.received store.isShared, keyId))) = none) :
    kept.1.find kept.2 (.str issuer) (.str subject) (.str keyId) =
      .error (store.absence issuer subject keyId) := by
  have hfind := h.holds.find h.up issuer subject keyId
  have habsence := absence_congr h.kind
  rw [h.kind, he, habsence] at hfind
  exact hfind

theorem Reaches.find_eq_ok
    (h : store.Reaches kept (Shelf.after (Holding.place store.isShared) history))
    (issuer subject keyId : Text) (stored : Stored) :
    kept.1.find kept.2 (.str issuer) (.str subject) (.str keyId) = .ok stored ↔
      ∃ e, Shelf.Stands (Holding.place store.isShared) history e ∧ e.place store.isShared =
          (issuer.received store.isShared, subject.received store.isShared, keyId) ∧
        e.stored store.isShared = stored := by
  simp only [← and_assoc, ← Shelf.find?_after_eq_some]
  constructor
  · intro hs
    cases hf : (Shelf.after (Holding.place store.isShared) history).find? fun e =>
      decide (e.place store.isShared =
        (issuer.received store.isShared, subject.received store.isShared, keyId)) with
    | none =>
      rw [h.find_of_none hf] at hs
      cases hs
    | some e =>
      rw [h.find_of_some hf] at hs
      exact ⟨e, rfl, Except.ok.inj hs⟩
  · rintro ⟨e, he, rfl⟩
    exact h.find_of_some he

theorem Reaches.find_eq_absence
    (h : store.Reaches kept (Shelf.after (Holding.place store.isShared) history))
    (issuer subject keyId : Text) :
    kept.1.find kept.2 (.str issuer) (.str subject) (.str keyId) =
        .error (store.absence issuer subject keyId) ↔
      ¬ ∃ e, Shelf.Stands (Holding.place store.isShared) history e ∧ e.place store.isShared =
        (issuer.received store.isShared, subject.received store.isShared, keyId) := by
  rw [← Shelf.find?_after_eq_none]
  constructor
  · intro hs
    refine Option.eq_none_iff_forall_ne_some.mpr fun e he => ?_
    rw [h.find_of_some he] at hs
    cases hs
  · exact h.find_of_none

theorem Reaches.list (h : store.Reaches kept l) (issuer subject : Text) :
    kept.1.list kept.2 (.str issuer) (.str subject) =
      .ok ((Holding.listing l store.isShared issuer subject).map
        (·.key.jwk.received store.isShared)) := by
  have hlist := h.holds.list h.up issuer subject
  rw [h.kind] at hlist
  exact hlist

theorem Reaches.id_received (h : store.Reaches kept l) (he : e ∈ l) :
    (e.key.jwk.received store.isShared).id = .str e.key.keyId := by
  have hnames := h.holds.names he
  unfold Names at hnames
  rw [h.kind] at hnames
  rw [e.key.id_received]
  exact congrArg Json.str (Text.received_of_toString? hnames)

end Answers

/-- Whatever was registered and removed before, and whether or not it went through: a store that was
empty gives the key that was last put into a place and not removed since, or says that there is none,
and lists each of these keys once, in memory in the order in which their places were filled and on the
server in the order of their identifiers. To the server texts are one that differ in the halves of
pairs only, and it gives them back with the halves joined. -/
theorem answers_after (hempty : store.Holds cache []) (hup : cache.outage = none)
    (history : List Holding.Change) :
    let heeded := (history.filter store.heeds).map (·.received store.isShared)
    let kept := (history.map Holding.Change.call).foldl KeyCall.apply (store, cache)
    (∀ e : Holding, (∃ after, kept.1.add kept.2 (.str e.issuer) (.str e.subject) e.key.jwk
      (.arr e.scopesJson) = .ok after) ↔ store.Takes e) ∧
    (∀ issuer subject keyId,
      (∀ stored, kept.1.find kept.2 (.str issuer) (.str subject) (.str keyId) = .ok stored ↔
        ∃ e, Shelf.Stands (Holding.place store.isShared) heeded e ∧ e.place store.isShared =
            (issuer.received store.isShared, subject.received store.isShared, keyId) ∧
          e.stored store.isShared = stored) ∧
      (kept.1.find kept.2 (.str issuer) (.str subject) (.str keyId) =
          .error (store.absence issuer subject keyId) ↔
        ¬ ∃ e, Shelf.Stands (Holding.place store.isShared) heeded e ∧ e.place store.isShared =
          (issuer.received store.isShared, subject.received store.isShared, keyId))) ∧
    ∀ issuer subject, ∃ l : List Holding,
      kept.1.list kept.2 (.str issuer) (.str subject) =
          .ok (l.map (·.key.jwk.received store.isShared)) ∧
        (∀ e, e ∈ l ↔ Shelf.Stands (Holding.place store.isShared) heeded e ∧
          e.isFor store.isShared issuer subject = true) ∧
        l.Pairwise (Precedes store.isShared heeded) ∧
        ∀ e ∈ l, (e.key.jwk.received store.isShared).id = .str e.key.keyId := by
  intro heeded kept
  have hstart : store.Reaches (store, cache) [] := ⟨hempty, rfl, hup⟩
  have hreached : store.Reaches kept (Shelf.after (Holding.place store.isShared) heeded) :=
    hstart.foldl history
  refine ⟨hreached.exists_add_iff, fun issuer subject keyId => ?_, fun issuer subject => ?_⟩
  · exact ⟨hreached.find_eq_ok issuer subject keyId, hreached.find_eq_absence issuer subject keyId⟩
  · refine ⟨_, hreached.list issuer subject, fun e => ?_,
      pairwise_listing store.isShared heeded issuer subject, fun e he => ?_⟩
    · rw [Holding.mem_listing, Shelf.mem_after]
    · exact hreached.id_received (Holding.mem_listing.mp he).1

end KeyStore
end AssertionGrant

namespace AssertionGrant.Specimen

def secretHolding : Holding where
  issuer := "i"
  subject := "s"
  key := {
    jwk := ⟨[("kty", .str "oct"), ("kid", .str "b"), ("k", .str "AQ")], .secret [1]⟩
    keyId := "b"
    named := rfl
    spelled := Jwk.ofJson_of_material (by decide +kernel)
    proper := ⟨by decide, trivial, trivial, trivial, trivial⟩ }
  scopes := ["é"]

theorem secret_found :
    let history : List Holding.Change :=
      [.put secretHolding, .clear ("i", "s", "b"), .put secretHolding]
    let kept := (history.map Holding.Change.call).foldl KeyCall.apply (.shared, {})
    kept.1.find kept.2 (.str "i") (.str "s") (.str "b") = .ok (secretHolding.stored true) := by
  intro history kept
  have hempty : KeyStore.shared.Holds {} [] := ⟨rfl, nofun⟩
  obtain ⟨-, hfind, -⟩ := KeyStore.answers_after hempty rfl history
  obtain ⟨hfound, -⟩ := hfind "i" "s" "b"
  have hheeded : (history.filter KeyStore.shared.heeds).map (·.received true) = history := rfl
  refine (hfound _).mpr ⟨secretHolding, ?_, rfl, rfl⟩
  change Shelf.Stands _ ((history.filter KeyStore.shared.heeds).map (·.received true)) _
  rw [hheeded]
  exact ⟨[.put secretHolding, .clear ("i", "s", "b")], [], rfl, nofun⟩

end AssertionGrant.Specimen
