import AssertionGrant.Proofs.Rolls
import AssertionGrant.Proofs.Tenants

/-! Registrations and removals of public keys, whether they go through or not. A store that is made
to go through them, be it in memory or on a server that is up, ends with a roll of its own. Of the keys
of an issuer and a subject both rolls have the same, if each of the calls comes to the server as it
was. -/

namespace AssertionGrant

inductive Enrolment where
  | add (e : Entry)
  | remove (issuer subject keyId : Text)

namespace Enrolment

def call : Enrolment → KeyCall
  | add e => ⟨e.issuer, e.subject, .add e.key.jwk (.arr e.scopesJson)⟩
  | remove issuer subject keyId => ⟨issuer, subject, .remove (.str keyId)⟩

/-- A call comes to the server as it was, as far as it is a matter of an issuer and a subject: the
server takes it for theirs only if it is, and the key that is registered for them can travel there and
comes back with its scopes as it was. -/
def Travels [Json.Nesting] (issuer subject : Text) : Enrolment → Prop
  | add e => e.holding.isFor true issuer subject = true →
    (e.issuer = issuer ∧ e.subject = subject) ∧ e.holding.Sendable ∧
      (e.received true).key = e.key ∧ (e.received true).scopes = e.scopes
  | remove issuer' subject' _ =>
    KeyStore.shared.tenant issuer' subject' = KeyStore.shared.tenant issuer subject →
      issuer' = issuer ∧ subject' = subject

end Enrolment

namespace Roll

section Shares

variable {roll : Roll} {shared : Bool} {issuer subject issuer' subject' keyId : Text} {d e : Entry}

def share (roll : Roll) (shared : Bool) (issuer subject : Text) : List (PublicKey × List Text) :=
  (roll.filter (·.isFor shared issuer subject)).map fun e => (e.key, e.scopes)

theorem share_cons : share (e :: roll) shared issuer subject =
    if e.isFor shared issuer subject then (e.key, e.scopes) :: roll.share shared issuer subject
    else roll.share shared issuer subject := by
  unfold share
  rw [List.filter_cons]
  split <;> rfl

theorem isFor_congr (h : d.place = e.place) :
    d.isFor shared issuer subject = e.isFor shared issuer subject := by
  obtain ⟨hi, hs, -⟩ : _ ∧ _ ∧ _ := by simpa [Entry.place] using h
  unfold Entry.isFor
  rw [hi, hs]

theorem share_put_of_not_isFor (h : e.isFor shared issuer subject = false) :
    (roll.put e).share shared issuer subject = roll.share shared issuer subject := by
  induction roll with
  | nil =>
    change share [e] shared issuer subject = _
    rw [share_cons, h]
    rfl
  | cons d roll ih =>
    rw [put, Shelf.put]
    split
    · next hplace =>
      rw [share_cons, share_cons, isFor_congr hplace, h]
      rfl
    · rw [share_cons, share_cons]
      change (if _ then _ :: share (put roll e) _ _ _ else share (put roll e) _ _ _) = _
      rw [ih]

theorem share_put_of_isFor (h : e.isFor shared issuer subject = true) :
    (roll.put e).share shared issuer subject =
      Shelf.put (·.1.keyId) (e.key, e.scopes) (roll.share shared issuer subject) := by
  obtain ⟨hi, hs⟩ := Entry.isFor_iff.mp h
  induction roll with
  | nil =>
    change share [e] shared issuer subject = _
    rw [share_cons, if_pos h]
    rfl
  | cons d roll ih =>
    rw [put, Shelf.put]
    split
    · next hplace =>
      have hid : d.key.keyId = e.key.keyId := by
        obtain ⟨-, -, hid⟩ : _ ∧ _ ∧ _ := by simpa [Entry.place] using hplace
        exact hid
      rw [share_cons, share_cons, isFor_congr hplace, if_pos h, if_pos h, Shelf.put, if_pos hid]
    · next hplace =>
      rw [share_cons, share_cons]
      change (if _ then _ :: share (put roll e) _ _ _ else share (put roll e) _ _ _) = _
      rw [ih]
      split
      · next hd =>
        obtain ⟨hdi, hds⟩ := Entry.isFor_iff.mp hd
        have hid : d.key.keyId ≠ e.key.keyId := fun hid => hplace <| by
          unfold Entry.place
          rw [hdi, hds, hi, hs, hid]
        rw [Shelf.put, if_neg hid]
      · rfl

theorem share_drop (roll : Roll) :
    (roll.drop shared issuer' subject' keyId).share shared issuer subject =
      if issuer'.received shared = issuer.received shared ∧
          subject'.received shared = subject.received shared then
        (roll.share shared issuer subject).filter fun x => decide (x.1.keyId ≠ keyId)
      else roll.share shared issuer subject := by
  have hat (e : Entry) : e.isAt shared issuer' subject' keyId = true ↔
      e.place = (issuer'.received shared, subject'.received shared, keyId) := Entry.isAt_iff
  unfold share drop
  rw [List.filter_filter]
  split
  · next hsame =>
    rw [List.filter_map, List.filter_filter]
    refine congrArg _ (List.filter_congr fun e _ => ?_)
    rw [Bool.eq_iff_iff, Bool.and_eq_true, Bool.and_eq_true, Bool.not_eq_true', ← Bool.not_eq_true,
      hat, hsame.1, hsame.2, Entry.isFor_iff]
    simp only [Entry.place, Prod.mk.injEq, Function.comp_apply, decide_eq_true_eq]
    constructor
    · rintro ⟨⟨hi, hs⟩, hne⟩
      exact ⟨fun hid => hne ⟨hi, hs, hid⟩, hi, hs⟩
    · rintro ⟨hne, hi, hs⟩
      exact ⟨⟨hi, hs⟩, fun h => hne h.2.2⟩
  · next hother =>
    refine congrArg _ (List.filter_congr fun e _ => ?_)
    rw [Bool.eq_iff_iff, Bool.and_eq_true, Bool.not_eq_true', ← Bool.not_eq_true, hat,
      and_iff_left_iff_imp, Entry.isFor_iff]
    rintro ⟨hi, hs⟩ hplace
    obtain ⟨hi', hs', -⟩ : _ ∧ _ ∧ _ := by simpa [Entry.place] using hplace
    exact hother ⟨hi'.symm.trans hi, hs'.symm.trans hs⟩

end Shares

variable [Json.Nesting] {roll roll' : Roll} {issuer subject : Text}

def enrol (shared : Bool) (roll : Roll) : Enrolment → Roll
  | .add e =>
    if e.key.keyId ≠ [] ∧ (shared = true → e.holding.Sendable) then roll.put (e.received shared)
    else roll
  | .remove issuer subject keyId => roll.drop shared issuer subject keyId

def enrolled (shared : Bool) (calls : List Enrolment) : Roll := calls.foldl (enrol shared) []

theorem share_enrol {c : Enrolment} (hc : c.Travels issuer subject)
    (h : roll'.share true issuer subject = roll.share false issuer subject) :
    (roll'.enrol true c).share true issuer subject =
      (roll.enrol false c).share false issuer subject := by
  cases c with
  | add e =>
    unfold enrol
    dsimp only
    cases hfor : e.holding.isFor true issuer subject with
    | true =>
      obtain ⟨⟨hi, hs⟩, hsendable, hkey, hscopes⟩ := hc hfor
      have hown : (e.received false).isFor false issuer subject = true :=
        Entry.isFor_iff.mpr ⟨hi, hs⟩
      have hshared : (e.received true).isFor true issuer subject = true := hfor
      by_cases hid : e.key.keyId = []
      · rw [if_neg fun h => h.1 hid, if_neg fun h => h.1 hid, h]
      · rw [if_pos ⟨hid, fun _ => hsendable⟩, if_pos ⟨hid, nofun⟩, share_put_of_isFor hshared,
          share_put_of_isFor hown, hkey, hscopes, h]
        exact congrArg (fun scopes => Shelf.put (·.1.keyId) (e.key, scopes) _)
          (List.map_id _).symm
    | false =>
      have hforeign : (e.received false).isFor false issuer subject = false := by
        refine Bool.eq_false_iff.mpr fun hown => ?_
        obtain ⟨hi, hs⟩ := Entry.isFor_iff.mp hown
        have hcollides : e.holding.isFor true issuer subject = true :=
          Holding.isFor_iff.mpr ⟨congrArg Text.merged hi, congrArg Text.merged hs⟩
        rw [hfor] at hcollides
        cases hcollides
      have hput : (roll'.put (e.received true)).share true issuer subject =
          roll'.share true issuer subject := share_put_of_not_isFor hfor
      have hput' : (roll.put (e.received false)).share false issuer subject =
          roll.share false issuer subject := share_put_of_not_isFor hforeign
      split <;> split <;> simp only [hput, hput', h]
  | remove issuer' subject' keyId =>
    unfold enrol
    rw [share_drop, share_drop, h]
    have hsame : (issuer'.received true = issuer.received true ∧
        subject'.received true = subject.received true) ↔
          issuer'.received false = issuer.received false ∧
            subject'.received false = subject.received false :=
      ⟨fun ⟨hi, hs⟩ => hc (Prod.ext hi hs),
        fun ⟨hi, hs⟩ => ⟨congrArg Text.merged hi, congrArg Text.merged hs⟩⟩
    simp only [hsame]

theorem share_enrolled {calls : List Enrolment} (hcalls : ∀ c ∈ calls, c.Travels issuer subject) :
    (enrolled true calls).share true issuer subject =
      (enrolled false calls).share false issuer subject := by
  suffices h : ∀ roll roll' : Roll,
      roll'.share true issuer subject = roll.share false issuer subject →
        (calls.foldl (enrol true) roll').share true issuer subject =
          (calls.foldl (enrol false) roll).share false issuer subject from h [] [] rfl
  induction calls with
  | nil => exact fun _ _ h => h
  | cons c calls ih =>
    obtain ⟨hc, hcalls⟩ := List.forall_mem_cons.mp hcalls
    exact fun roll roll' h => ih hcalls _ _ (share_enrol hc h)

end Roll

namespace KeyStore

variable [Json.Nesting] {store : KeyStore} {cache : Cache} {roll : Roll} {e : Entry}
  {kept kept' : KeyStore × Cache}

structure Enrolled (roll : Roll) (kept kept' : KeyStore × Cache) : Prop where
  filled : Filled kept'.1 kept'.2 roll
  kind : kept'.1.isShared = kept.1.isShared
  server : ∃ fields, kept'.2 = { kept.2 with fields }

theorem Filled.drop_of_not_names (h : Filled store cache roll) (issuer subject : Text) {keyId : Text}
    (hid : ¬ store.Names keyId) : roll.drop store.isShared issuer subject keyId = roll := by
  refine List.filter_eq_self.mpr fun e he => ?_
  rw [Bool.not_eq_true', ← Bool.not_eq_true, Entry.isAt_iff]
  intro hplace
  obtain ⟨-, -, rfl⟩ : _ ∧ _ ∧ _ := by simpa [Entry.place] using hplace
  exact hid (h.names he)

/-- A call does to a store what it does to the roll. -/
theorem Enrolled.apply (h : Enrolled roll kept kept') (hup : kept.2.outage = none)
    (c : Enrolment) : Enrolled (roll.enrol kept.1.isShared c) kept (c.call.apply kept') := by
  obtain ⟨fields, hserver⟩ := h.server
  have hup' : kept'.2.outage = none := by rw [hserver, hup]
  have hkept {after : KeyStore × Cache} (hafter : ∃ fields, after.2 = { kept'.2 with fields }) :
      ∃ fields, after.2 = { kept.2 with fields } := by
    obtain ⟨fields', e⟩ := hafter
    exact ⟨fields', by rw [e, hserver]⟩
  obtain ⟨l, hl⟩ := h.filled.enters
  rw [← h.kind]
  cases c with
  | add e =>
    unfold Enrolment.call KeyCall.apply Roll.enrol
    dsimp only
    split
    · next htakes =>
      obtain ⟨after, hadd⟩ : ∃ after, kept'.1.add kept'.2 (.str e.issuer) (.str e.subject) e.key.jwk
          (.arr e.scopesJson) = .ok after := exists_add (e := e.holding) hup' htakes
      obtain ⟨-, hkind, -⟩ := hl.holds.of_add (e := e.holding) hadd
      rw [hadd]
      exact ⟨.added e h.filled hadd, hkind.trans h.kind, hkept (fields_of_add hadd)⟩
    · next hrefused =>
      cases hadd : kept'.1.add kept'.2 (.str e.issuer) (.str e.subject) e.key.jwk
        (.arr e.scopesJson) with
      | error f => exact h
      | ok after => exact absurd (hl.holds.of_add (e := e.holding) hadd).1 hrefused
  | remove issuer subject keyId =>
    unfold Enrolment.call KeyCall.apply Roll.enrol
    dsimp only
    by_cases hid : kept'.1.Names keyId
    · obtain ⟨after, hremove⟩ := exists_remove hup' issuer subject hid
      rw [hremove]
      exact ⟨.removed issuer subject keyId h.filled hremove,
        (hl.holds.of_remove hremove).1.trans h.kind, hkept (fields_of_remove hremove)⟩
    · rw [remove_of_not_names hup' (.str issuer) (.str subject) hid,
        h.filled.drop_of_not_names issuer subject hid]
      exact h

theorem Enrolled.foldl (h : Enrolled roll kept kept') (hup : kept.2.outage = none)
    (calls : List Enrolment) :
    Enrolled (calls.foldl (Roll.enrol kept.1.isShared) roll) kept
      ((calls.map Enrolment.call).foldl KeyCall.apply kept') := by
  induction calls generalizing roll kept' with
  | nil => exact h
  | cons c calls ih => exact ih (h.apply hup c)

theorem Filled.enrolled (h : Filled store cache []) (hup : cache.outage = none)
    (calls : List Enrolment) : Enrolled (Roll.enrolled store.isShared calls) (store, cache)
      ((calls.map Enrolment.call).foldl KeyCall.apply (store, cache)) := by
  have hstart : Enrolled [] (store, cache) (store, cache) := ⟨h, rfl, cache.fields, rfl⟩
  exact hstart.foldl hup calls

end KeyStore

def Site.enrolling [Json.Nesting] (s : Site) (keys : KeyStore) (calls : List Enrolment) : Site :=
  { s with keys }.registering (calls.map Enrolment.call)

end AssertionGrant
