import AssertionGrant.Proofs.Enrolment
import AssertionGrant.Proofs.Offers
import AssertionGrant.Proofs.Registered

/-! Keys in memory and keys on the shared server. After the same registrations and removals both
stores answer for an issuer and a subject from one share, if what was registered and removed for them
came to the server as it was; what they list they list in orders of their own. If no two keys verify a
token the order does not matter, and a request fares alike whichever of the stores is asked. -/

namespace AssertionGrant
open Act

inductive Undetailed : Failure → Failure → Prop
  | refusal (kind : RefusalKind) (hint debug debug' : Option Text) :
    Undetailed (.refusal ⟨kind, hint, debug⟩) (.refusal ⟨kind, hint, debug'⟩)
  | fault (e : Fault) : Undetailed (.fault e) (.fault e)

def Likeness.undetailed : Likeness where
  rel := Undetailed
  refl f := by
    cases f with
    | refusal r => exact .refusal r.kind r.hint r.debug r.debug
    | fault e => exact .fault e
  kinds h := by
    cases h with
    | refusal kind hint debug debug' => exact .inl ⟨_, _, rfl, rfl, rfl⟩
    | fault e => exact .inr ⟨e, e, rfl, rfl⟩
  detail _ kind hint := .refusal kind hint _ _

theorem Disturbance.Agree.answer {α : Type} {l : Likeness} {d d' : Option (Disturbance α)}
    (h : Disturbance.Agree l d d') (own own' : Except Failure α) :
    AssertionGrant.Agree l (answer d own) (answer d' own') ∨
      answer d own = own ∧ answer d' own' = own' := by
  cases h with
  | none => exact .inr ⟨rfl, rfl⟩
  | silent delay cancels => exact .inr ⟨rfl, rfl⟩
  | answering delay cancels hr => exact .inl hr

theorem Signer.checkContext_twice {α : Type} (x : Act α) :
    (checkContext >>= fun _ => checkContext >>= fun _ => x) = checkContext >>= fun _ => x := by
  funext s
  change outcome _ s = outcome _ s
  rcases checkContext_cases s with ⟨-, e⟩ | ⟨-, q, -, e⟩
  · rw [outcome_bind, e]
  · rw [outcome_bind, outcome_bind, e]

variable [Json.Nesting]

def AccessRequest.Names (r : AccessRequest) (t : Compact) (issuer subject : Text) : Prop :=
  ∃ raw, Grant.assertionOf r = .ok raw ∧ Assertion.parse raw = .ok t ∧
    Grant.issuerAndSubject t = .ok (issuer, subject)

/-- At most one of the keys registered for the issuer and the subject of its assertion signed it. -/
def AccessRequest.SignedOnce (r : AccessRequest) (allowed : List Text) (roll : Roll) : Prop :=
  ∀ t issuer subject, r.Names t issuer subject → ∀ d ∈ roll, ∀ e ∈ roll,
    d.isFor false issuer subject = true → e.isFor false issuer subject = true →
      t.SignedBy allowed d.key.jwk → t.SignedBy allowed e.key.jwk → d = e

/-- All calls come to the server as they were, as far as they are a matter of the issuer and the
subject of the request's assertion. -/
def AccessRequest.Travels (r : AccessRequest) (calls : List Enrolment) : Prop :=
  ∀ t issuer subject, r.Names t issuer subject → ∀ c ∈ calls, c.Travels issuer subject

namespace Signer

variable {t : Compact} {allowed : List Text} {issuer subject : Text} {fields : Fields}

theorem firstVerifying_of_ok {key : Jwk} (h : Assertion.verify t key.material allowed = .ok fields)
    (rest : List (Option Jwk)) : firstVerifying t allowed issuer subject (some key :: rest) =
      checkContext >>= fun _ => note (.keyMatched issuer subject key.id.shown) >>= fun _ =>
        pure (key, fields) := by
  rw [firstVerifying]
  simp only [h]

theorem firstVerifying_of_refusal {key : Jwk} {q : Refusal}
    (h : Assertion.verify t key.material allowed = .error (.refusal q)) (rest : List (Option Jwk)) :
    firstVerifying t allowed issuer subject (some key :: rest) =
      checkContext >>= fun _ => firstVerifying t allowed issuer subject rest := by
  rw [firstVerifying]
  simp only [h]

/-- If at most one of some keys signed a token, the order in which they are tried does not matter. -/
theorem firstVerifying_perm (hclaims : t.unverifiedClaims = .ok fields) {l l' : List PublicKey}
    (h : l.Perm l') (hone : ∀ d ∈ l, ∀ e ∈ l, t.SignedBy allowed d.jwk →
      t.SignedBy allowed e.jwk → d = e) :
    firstVerifying t allowed issuer subject (l.map fun e => some e.jwk) =
      firstVerifying t allowed issuer subject (l'.map fun e => some e.jwk) := by
  induction h with
  | nil => rfl
  | cons d _ ih =>
    have ih := ih fun a ha b hb =>
      hone a (List.mem_cons_of_mem _ ha) b (List.mem_cons_of_mem _ hb)
    rw [List.map_cons, List.map_cons, firstVerifying, firstVerifying, ih]
  | swap d e l =>
    have hsame := hone e List.mem_cons_self d (List.mem_cons_of_mem _ List.mem_cons_self)
    simp only [List.map_cons]
    -- Whichever of the two comes first, the one that signed is found, if the other did not.
    rcases verify_cases hclaims allowed d with ⟨hd, hvd⟩ | ⟨-, q, hvd⟩ <;>
      rcases verify_cases hclaims allowed e with ⟨he, hve⟩ | ⟨-, q', hve⟩
    · rw [hsame he hd]
    · rw [firstVerifying_of_refusal hve, firstVerifying_of_ok hvd, checkContext_twice,
        firstVerifying_of_ok hvd]
    · rw [firstVerifying_of_ok hve, firstVerifying_of_refusal hvd, firstVerifying_of_ok hve,
        checkContext_twice]
    · simp only [firstVerifying_of_refusal hve, firstVerifying_of_refusal hvd]
  | trans h _ ih ih' =>
    exact (ih hone).trans (ih' fun a ha b hb => hone a (h.mem_iff.mpr ha) b (h.mem_iff.mpr hb))

end Signer

abbrev Share := List (PublicKey × List Text)

namespace KeyStore

variable {store : KeyStore} {cache cache' : Cache} {issuer subject : Text} {share : Share}

def Serves (store : KeyStore) (cache : Cache) (issuer subject : Text) (share : Share) : Prop :=
  ∃ roll, Filled store cache roll ∧ roll.share store.isShared issuer subject = share

theorem Serves.elsewhere (h : store.Serves cache issuer subject share)
    (hfields : cache'.fields = cache.fields) : store.Serves cache' issuer subject share := by
  obtain ⟨roll, hroll, hshare⟩ := h
  exact ⟨roll, .elsewhere hroll hfields, hshare⟩

theorem Serves.find (h : store.Serves cache issuer subject share) (hup : cache.outage = none)
    (keyId : Text) : store.find cache (.str issuer) (.str subject) (.str keyId) =
      match share.find? (·.1.keyId == keyId) with
      | some (key, scopes) => .ok ⟨key.jwk, scopes.map .str⟩
      | none => .error (store.absence issuer subject keyId) := by
  obtain ⟨roll, hroll, rfl⟩ := h
  have hfind : (roll.share store.isShared issuer subject).find? (·.1.keyId == keyId) =
      (roll.find? store.isShared issuer subject keyId).map fun e => (e.key, e.scopes) := by
    unfold Roll.share Roll.find?
    rw [List.find?_map, List.find?_filter]
    refine congrArg (Option.map _) (congrArg (List.find? · roll) (funext fun e => ?_))
    rw [Bool.eq_iff_iff, decide_eq_true_eq, Entry.isAt, Bool.and_eq_true]
    rfl
  rw [hroll.find hup, hfind]
  cases roll.find? store.isShared issuer subject keyId <;> rfl

theorem Serves.list (h : store.Serves cache issuer subject share) (hup : cache.outage = none) :
    ∃ l : List PublicKey, l.Perm (share.map (·.1)) ∧
      store.list cache (.str issuer) (.str subject) = .ok (l.map (·.jwk)) := by
  obtain ⟨roll, hroll, rfl⟩ := h
  refine ⟨(roll.listing store.isShared issuer subject).map (·.key), ?_, ?_⟩
  · unfold Roll.share
    rw [List.map_map]
    exact (roll.perm_listing store.isShared issuer subject).map _
  · rw [hroll.list hup, List.map_map]
    rfl

end KeyStore

structure Stores.Backed (P : Text → Text → Prop) (shares : Text → Text → Share) (a b : Stores) :
    Prop where
  left : ∀ issuer subject, P issuer subject →
    a.keys.Serves a.records.cache issuer subject (shares issuer subject)
  right : ∀ issuer subject, P issuer subject →
    b.keys.Serves b.records.cache issuer subject (shares issuer subject)
  up : a.records.cache.outage = none
  server : ∃ fields, b.records.cache = { a.records.cache with fields }
  store : b.records.store = a.records.store

theorem Stores.Backed.up' {P : Text → Text → Prop} {shares : Text → Text → Share} {a b : Stores}
    (h : Backed P shares a b) : b.records.cache.outage = none := by
  obtain ⟨fields, e⟩ := h.server
  rw [e]
  exact h.up

def Pairing.backed (now : Instant) (P : Text → Text → Prop) (shares : Text → Text → Share) :
    Pairing where
  likeness := .undetailed
  now := now
  disturbed d := Disturbance.Honest d.key ∧ Disturbance.Honest d.keys
  stores := Stores.Backed P shares
  tenant _ _ := False
  jti _ := True
  found _ h := h.elim
  listed _ h := h.elim
  replied := by
    rintro a b call ⟨hleft, hright, hup, ⟨fields, hf⟩, hstore⟩ -
    obtain ⟨answer, store, texts, e, e'⟩ :=
      Stores.replied_beside now hstore (by rw [hf]) (by rw [hf]) call
    rw [e, e']
    exact ⟨.refl _, fun i u h => (hleft i u h).elsewhere rfl, fun i u h => (hright i u h).elsewhere rfl,
      hup, ⟨fields, by rw [hf]⟩, rfl⟩

section Backed

variable {now : Instant} {P : Text → Text → Prop} {shares : Text → Text → Share} {s s' t : Site}
  {issuer subject keyId : Text}

theorem parallel_storedKey_of_mem (hP : P issuer subject) {x : PublicKey × List Text}
    (hx : x ∈ shares issuer subject) : Parallel (.backed now P shares)
      (storedKey issuer subject (.str x.1.keyId)) (storedKey issuer subject (.str x.1.keyId)) := by
  intro s t h
  have hleft : s.keys.Serves s.cache issuer subject _ := h.stores.left _ _ hP
  have hright : t.keys.Serves t.cache issuer subject _ := h.stores.right _ _ hP
  obtain ⟨⟨key, scopes⟩, hfind⟩ :
      ∃ y, (shares issuer subject).find? (·.1.keyId == x.1.keyId) = some y := by
    rw [← Option.isSome_iff_exists, List.find?_isSome]
    exact ⟨x, hx, beq_self_eq_true _⟩
  rw [outcome_storedKey_eq, outcome_storedKey_eq, hleft.find h.stores.up, hright.find h.stores.up',
    hfind]
  exact ⟨.refl _, h⟩

theorem keyAt_of_backed (h : Site.Paired (.backed now P shares) s t) (hP : P issuer subject)
    (keyId : Text) :
    Agree .undetailed (s.keyAt issuer subject keyId) (t.keyAt issuer subject keyId) ∨
      ∃ e e', s.keyAt issuer subject keyId = .error (.fault e) ∧
        t.keyAt issuer subject keyId = .error (.fault e') := by
  have hleft : s.keys.Serves s.cache issuer subject _ := h.stores.left _ _ hP
  have hright : t.keys.Serves t.cache issuer subject _ := h.stores.right _ _ hP
  unfold Site.keyAt
  rw [hleft.find h.stores.up, hright.find h.stores.up']
  rcases h.disturbances.key.answer _ _ with hagree | ⟨hs, ht⟩
  · exact .inl hagree
  · rw [hs, ht]
    cases (shares issuer subject).find? (·.1.keyId == keyId) with
    | none => exact .inr ⟨_, _, rfl, rfl⟩
    | some x => exact .inl (.refl _)

theorem keysAt_of_backed (h : Site.Paired (.backed now P shares) s t) (hP : P issuer subject) :
    Agree .undetailed (s.keysAt issuer subject) (t.keysAt issuer subject) ∨
      ∃ l l' : List PublicKey, l.Perm ((shares issuer subject).map (·.1)) ∧
        l'.Perm ((shares issuer subject).map (·.1)) ∧
        s.keysAt issuer subject = .ok (some (l.map fun e => some e.jwk)) ∧
        t.keysAt issuer subject = .ok (some (l'.map fun e => some e.jwk)) := by
  have hleft : s.keys.Serves s.cache issuer subject _ := h.stores.left _ _ hP
  have hright : t.keys.Serves t.cache issuer subject _ := h.stores.right _ _ hP
  obtain ⟨l, hl, hs⟩ := hleft.list h.stores.up
  obtain ⟨l', hl', ht⟩ := hright.list h.stores.up'
  have hown (l : List PublicKey) :
      (((Except.ok (l.map (·.jwk)) : Except Fault (List Jwk)).mapError Failure.fault).map
        fun keys => some (keys.map some)) = .ok (some (l.map fun e => some e.jwk)) := by
    simp only [Except.mapError, Except.map, List.map_map]
    rfl
  unfold Site.keysAt
  rw [hs, ht, hown, hown]
  rcases h.disturbances.keys.answer _ _ with hagree | ⟨hs, ht⟩
  · exact .inl hagree
  · exact .inr ⟨l, l', hl, hl', hs, ht⟩

namespace Signer

theorem parallel_lookUpKey (hP : P issuer subject) (entry : Text → LogEntry) :
    Parallel (.backed now P shares)
      (tryCatch (publicKey issuer subject keyId) (lookupFailed issuer subject entry))
      (tryCatch (publicKey issuer subject keyId) (lookupFailed issuer subject entry)) := by
  intro s t h
  have hafter : Site.Paired (.backed now P shares) (s.after (.key issuer subject keyId))
      (t.after (.key issuer subject keyId)) := paired_called h h.disturbances.key _
  rw [outcome_tryCatch, outcome_tryCatch, outcome_publicKey, outcome_publicKey]
  rcases keyAt_of_backed h hP keyId with hagree | ⟨e, e', hs, ht⟩
  · generalize s.keyAt issuer subject keyId = x, t.keyAt issuer subject keyId = y at hagree
    cases hagree with
    | ok given => exact ⟨.ok given, hafter⟩
    | error hf => exact parallel_lookupFailed entry hf _ _ hafter
  · rw [hs, ht]
    exact ⟨.error (.refusal ..), hafter.logged _ _⟩

theorem parallel_listing_bind {α : Type} {entry : Text → LogEntry}
    {k : Option (List (Option Jwk)) → Act α} (hP : P issuer subject)
    (hk : ∀ given, Parallel (.backed now P shares) (k given) (k given))
    (horder : ∀ l : List PublicKey, l.Perm ((shares issuer subject).map (·.1)) →
      k (some (l.map fun e => some e.jwk)) =
        k (some (((shares issuer subject).map (·.1)).map fun e => some e.jwk))) :
    Parallel (.backed now P shares)
      (tryCatch (publicKeys issuer subject) (lookupFailed issuer subject entry) >>= k)
      (tryCatch (publicKeys issuer subject) (lookupFailed issuer subject entry) >>= k) := by
  intro s t h
  have hafter : Site.Paired (.backed now P shares) (s.after (.keys issuer subject))
      (t.after (.keys issuer subject)) := paired_called h h.disturbances.keys _
  have hrun (s : Site) :
      (tryCatch (publicKeys issuer subject) (lookupFailed issuer subject entry) >>= k).outcome s =
        match s.keysAt issuer subject with
        | .ok given => (k given).outcome (s.after (.keys issuer subject))
        | .error f =>
          (lookupFailed issuer subject entry f >>= k).outcome (s.after (.keys issuer subject)) := by
    rw [outcome_bind, outcome_tryCatch, outcome_publicKeys]
    cases s.keysAt issuer subject with
    | ok given => rfl
    | error f => exact (outcome_bind ..).symm
  rw [hrun, hrun]
  rcases keysAt_of_backed h hP with hagree | ⟨l, l', hl, hl', hs, ht⟩
  · generalize s.keysAt issuer subject = x, t.keysAt issuer subject = y at hagree
    cases hagree with
    | ok given => exact hk given _ _ hafter
    | error hf => exact ((parallel_lookupFailed entry hf).bind fun given _ => hk given) _ _ hafter
  · rw [hs, ht]
    dsimp only
    rw [horder l hl, horder l' hl']
    exact hk _ _ _ hafter

variable {tok : Compact} {allowed : List Text} {fields : Fields}

theorem parallel_find_backed (hP : P issuer subject) (hclaims : tok.unverifiedClaims = .ok fields)
    (hone : ∀ x ∈ shares issuer subject, ∀ y ∈ shares issuer subject,
      tok.SignedBy allowed x.1.jwk → tok.SignedBy allowed y.1.jwk → x.1 = y.1) :
    Parallel (.backed now P shares) (find tok allowed issuer subject)
      (find tok allowed issuer subject) := by
  unfold find
  dsimp only
  split
  · exact parallel_findNamed (parallel_lookUpKey hP _)
  refine parallel_checkContext.bind fun _ _ =>
    parallel_listing_bind hP (fun given => ?_) fun l hl => ?_
  · cases given with
    | none => exact parallel_throw (Likeness.undetailed.refl _)
    | some keys => exact parallel_firstVerifying keys
  · refine firstVerifying_perm hclaims hl fun d hd e he => ?_
    obtain ⟨x, hx, rfl⟩ := List.mem_map.mp (hl.mem_iff.mp hd)
    obtain ⟨y, hy, rfl⟩ := List.mem_map.mp (hl.mem_iff.mp he)
    exact hone x hx y hy

end Signer
end Backed

namespace Grant

variable {g : Grant} {r : AccessRequest} {raw : String} {now : Instant}
  {P : Text → Text → Prop} {shares : Text → Text → Share}

theorem keyId_of_verifiedClaims_gives {s s' : Site} {c : Claims} {keyId : Json} {expiry : Instant}
    {share : Share} (hserves : s.keys.Serves s.cache c.issuer c.subject share)
    (hkey : Disturbance.Honest s.disturbances.key) (hkeys : Disturbance.Honest s.disturbances.keys)
    (h : (g.verifiedClaims raw).Gives s (c, keyId, expiry) s') :
    ∃ x ∈ share, keyId = .str x.1.keyId := by
  obtain ⟨roll, hroll, rfl⟩ := hserves
  obtain ⟨-, t', ht', hnamed'⟩ := named_of_verifiedClaims_gives h
  rw [verifiedClaims_eq] at h
  obtain ⟨t, _, h₁, h⟩ := gives_bind.mp h
  obtain ⟨ht, rfl⟩ := gives_refusing.mp h₁
  obtain ⟨named, _, h₂, h⟩ := gives_bind.mp h
  obtain ⟨hnamed, rfl⟩ := gives_refusing.mp h₂
  obtain rfl := Except.ok.inj (ht.symm.trans ht')
  obtain rfl := Except.ok.inj (hnamed.symm.trans hnamed')
  obtain ⟨⟨key, payload⟩, _, hfind, h⟩ := gives_bind.mp h
  obtain ⟨e, he, hfor, rfl⟩ :=
    (Signer.resolves_of_find_gives hkey hkeys hfind).exists_entry hroll
  refine ⟨(e.key, e.scopes), List.mem_map_of_mem (List.mem_filter.mpr ⟨he, hfor⟩), ?_⟩
  obtain ⟨_, _, -, h⟩ := gives_bind.mp h
  obtain ⟨_, _, -, h⟩ := gives_bind.mp h
  obtain ⟨_, _, -, h⟩ := gives_bind.mp h
  obtain ⟨hgiven, -⟩ := gives_pure.mp h
  obtain ⟨-, hid, -⟩ := by simpa only [Prod.mk.injEq] using hgiven
  rw [← hid]
  exact e.key.id_or_empty

theorem matched_backed (hraw : assertionOf r = .ok raw)
    (hP : ∀ t issuer subject, r.Names t issuer subject → P issuer subject)
    (hone : ∀ t issuer subject, r.Names t issuer subject →
      ∀ x ∈ shares issuer subject, ∀ y ∈ shares issuer subject,
        t.SignedBy g.settings.algorithms x.1.jwk → t.SignedBy g.settings.algorithms y.1.jwk →
          x.1 = y.1) : g.Matched (.backed now P shares) raw where
  find t issuer subject ht hnamed := by
    obtain ⟨fields, hclaims, -, -⟩ := issuerAndSubject_eq_ok.mp hnamed
    have hnames : r.Names t issuer subject := ⟨raw, hraw, ht, hnamed⟩
    exact Signer.parallel_find_backed (hP t _ _ hnames) hclaims (hone t _ _ hnames)
  scopes {s _ _ c _ _} h hgives := by
    obtain ⟨-, t, ht, hnamed⟩ := named_of_verifiedClaims_gives hgives
    have hserved : P c.issuer c.subject := hP t _ _ ⟨raw, hraw, ht, hnamed⟩
    obtain ⟨x, hx, rfl⟩ := keyId_of_verifiedClaims_gives (h.stores.left _ _ hserved)
      h.disturbed.1 h.disturbed.2 hgives
    exact parallel_storedKey_of_mem hserved hx
  jti _ _ _ := trivial

end Grant

theorem Site.paired_enrolling {s : Site} {calls : List Enrolment} {P : Text → Text → Prop}
    (hup : s.cache.outage = none) (hempty : s.cache.fields = [])
    (hkey : Disturbance.Honest s.disturbances.key) (hkeys : Disturbance.Honest s.disturbances.keys)
    (hcalls : ∀ issuer subject, P issuer subject → ∀ c ∈ calls, c.Travels issuer subject) :
    Site.Paired (.backed s.now P ((Roll.enrolled false calls).share false))
      (s.enrolling (.memory []) calls) (s.enrolling .shared calls) := by
  have hleft := (KeyStore.Filled.inMemory s.cache).enrolled hup calls
  have hright := (KeyStore.Filled.onServer s.cache hempty).enrolled hup calls
  obtain ⟨fields, hleft'⟩ := hleft.server
  obtain ⟨fields', hright'⟩ := hright.server
  refine ⟨rfl, rfl, rfl, rfl, rfl, rfl, .refl _, ⟨hkey, hkeys⟩, fun i u h => ?_, fun i u h => ?_, ?_,
    ⟨fields', ?_⟩, rfl⟩
  · exact ⟨_, hleft.filled, congrArg (Roll.share _ · i u) hleft.kind⟩
  · refine ⟨_, hright.filled, (congrArg (Roll.share _ · i u) hright.kind).trans ?_⟩
    exact Roll.share_enrolled (hcalls i u h)
  · exact (congrArg (·.outage) hleft').trans hup
  · change (List.foldl KeyCall.apply (.shared, s.cache) _).2 =
      { (List.foldl KeyCall.apply (.memory [], s.cache) _).2 with fields := fields' }
    rw [hright', hleft']

/-- Whether keys are registered in memory or on a server that is up, a request gets the same grants
and the same session, and fails alike but for the detail for the operator, if at most one of the keys
signed its assertion and all that was registered and removed for its issuer and subject came to the
server as it was. -/
theorem Grant.backends_agree (g : Grant) (r : AccessRequest) (calls : List Enrolment) {s : Site}
    (hup : s.cache.outage = none) (hempty : s.cache.fields = [])
    (hkey : Disturbance.Honest s.disturbances.key) (hkeys : Disturbance.Honest s.disturbances.keys)
    (hcalls : r.Travels calls)
    (hone : r.SignedOnce g.settings.algorithms (Roll.enrolled false calls)) :
    (g.handled r (s.enrolling .shared calls)).1.request =
        (g.handled r (s.enrolling (.memory []) calls)).1.request ∧
      Agree .undetailed (g.handled r (s.enrolling (.memory []) calls)).1.result
        (g.handled r (s.enrolling .shared calls)).1.result := by
  let P (issuer subject : Text) : Prop := ∃ t, r.Names t issuer subject
  have hshare (t : Compact) (issuer subject : Text) (hnames : r.Names t issuer subject) :
      ∀ x ∈ (Roll.enrolled false calls).share false issuer subject,
        ∀ y ∈ (Roll.enrolled false calls).share false issuer subject,
          t.SignedBy g.settings.algorithms x.1.jwk → t.SignedBy g.settings.algorithms y.1.jwk →
            x.1 = y.1 := by
    intro x hx y hy hsx hsy
    obtain ⟨d, hd, rfl⟩ := List.mem_map.mp hx
    obtain ⟨e, he, rfl⟩ := List.mem_map.mp hy
    obtain ⟨hd, hdfor⟩ := List.mem_filter.mp hd
    obtain ⟨he, hefor⟩ := List.mem_filter.mp he
    rw [hone t issuer subject hnames d hd e he hdfor hefor hsx hsy]
  obtain ⟨hresult, hrequest, -⟩ := Grant.handled_matched
    (fun _ hraw => matched_backed hraw (fun t _ _ h => (⟨t, h⟩ : P _ _)) hshare)
    (Site.paired_enrolling hup hempty hkey hkeys fun i u ⟨t, h⟩ => hcalls t i u h)
  exact ⟨hrequest, hresult⟩

end AssertionGrant

namespace AssertionGrant.Specimen

def spareKey : Jwk where
  fields := [("kty", .str "RSA"), ("kid", .str "a"), ("e", .str "BQ"), ("n", .str
    ("tAsDaQrfPqfan8esUfzY_r-mZV60I4SHqQf1LBh5N1kDad8-UVt_Zp9p1LYzESmcEySHFK3f6hUxyDdElMAv8Q"))]
  material := .rsaPublic
    ⟨0xb40b03690adf3ea7da9fc7ac51fcd8febfa6655eb4238487a907f52c18793759 * 2 ^ 256 +
      0x0369df3e515b7f669f69d4b63311299c13248714addfea1531c8374494c02ff1, 5⟩

def spareEntry : Entry where
  issuer := "i"
  subject := "s"
  key := {
    jwk := spareKey
    keyId := "a"
    isPublic := trivial
    named := rfl
    spelled := Jwk.ofJson_of_material (by decide +kernel)
    proper := ⟨by decide, trivial, trivial, trivial, trivial, trivial⟩ }
  scopes := ["read"]

def enrolments : List Enrolment :=
  [.add spareEntry, .add entry, .remove "i" "s" "a", .add spareEntry]

theorem request_backed : request.Travels enrolments ∧
    request.SignedOnce grant.settings.algorithms (Roll.enrolled false enrolments) ∧
    (grant.handled request (site.enrolling .shared enrolments)).1.result = .ok () := by
  have hspare : (Assertion.parse raw).toOption.map (fun t =>
      (Assertion.verify t spareKey.material grant.settings.algorithms).toOption.isSome) =
        some false := by decide +kernel
  have haccepted : (grant.handled request (site.enrolling (.memory []) enrolments)).1.result =
      .ok () := by decide +kernel
  have hnames : (Assertion.parse raw).toOption.bind (fun t =>
      (Grant.issuerAndSubject t).toOption) = some (.ofString "i", .ofString "s") := by
    decide +kernel
  have hadd : (Enrolment.add entry).Travels "i" "s" := fun _ =>
    ⟨⟨rfl, rfl⟩, by decide +kernel, rfl, rfl⟩
  have haddSpare : (Enrolment.add spareEntry).Travels "i" "s" := fun _ =>
    ⟨⟨rfl, rfl⟩, by decide +kernel, rfl, rfl⟩
  have hcalls : request.Travels enrolments := by
    rintro t issuer subject ⟨_, hraw, ht, hnamed⟩
    obtain rfl := Except.ok.inj hraw
    obtain ⟨rfl, rfl⟩ : "i" = issuer ∧ "s" = subject := by
      simpa [ht, hnamed, Except.toOption] using hnames.symm
    intro c hc
    obtain rfl | rfl | rfl | rfl := by simpa [enrolments] using hc
    · exact haddSpare
    · exact hadd
    · exact fun _ => ⟨rfl, rfl⟩
    · exact haddSpare
  have hone : request.SignedOnce grant.settings.algorithms (Roll.enrolled false enrolments) := by
    rintro t issuer subject ⟨_, hraw, ht, hnamed⟩
    obtain rfl := Except.ok.inj hraw
    obtain ⟨fields, hclaims, -, -⟩ := Grant.issuerAndSubject_eq_ok.mp hnamed
    have hsigner (e : Entry) (he : e ∈ Roll.enrolled false enrolments)
        (hsigned : t.SignedBy grant.settings.algorithms e.key.jwk) : e = entry := by
      rcases List.mem_pair.mp (show e ∈ [entry, spareEntry] from he) with rfl | rfl
      · rfl
      · have hverified := Assertion.verify_eq_ok.mpr ⟨hsigned, hclaims⟩
        rw [ht] at hspare
        rw [show spareEntry.key.jwk.material = spareKey.material from rfl] at hverified
        simp [Except.toOption, hverified] at hspare
    intro d hd e he _ _ hd' he'
    rw [hsigner d hd hd', hsigner e he he']
  refine ⟨hcalls, hone, ?_⟩
  obtain ⟨-, hagree⟩ := grant.backends_agree (s := site) request enrolments rfl rfl
    Disturbance.honest_none Disturbance.honest_none hcalls hone
  rw [haccepted] at hagree
  generalize (grant.handled request (site.enrolling .shared enrolments)).1.result = x at hagree
  cases hagree
  rfl

end AssertionGrant.Specimen
