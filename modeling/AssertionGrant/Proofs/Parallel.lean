import AssertionGrant.Proofs.Storages

/-! Two runs of one request, side by side, at sites whose storages answer alike whatever the request
may ask of them. The failures of the two runs may differ as far as a likeness allows. Every gate
then does the same in both runs, and the sites stay paired. -/

namespace AssertionGrant

/-- What two failures may differ in. No gate tells them apart, and each gate that passes on the text
of a failure as a detail makes like failures of them. -/
structure Likeness where
  rel : Failure → Failure → Prop
  refl : ∀ f, rel f f
  kinds : ∀ {f f'}, rel f f' →
    (∃ r r', f = .refusal r ∧ f' = .refusal r' ∧ r.kind = r'.kind) ∨
      ∃ e e', f = .fault e ∧ f' = .fault e'
  detail : ∀ {f f'}, rel f f' → ∀ kind hint,
    rel (.refusal ⟨kind, hint, some f.text⟩) (.refusal ⟨kind, hint, some f'.text⟩)

def Likeness.same : Likeness where
  rel := Eq
  refl _ := rfl
  kinds := by
    rintro (r | e) _ rfl
    · exact .inl ⟨r, r, rfl, rfl, rfl⟩
    · exact .inr ⟨e, e, rfl, rfl⟩
  detail := by
    rintro f _ rfl kind hint
    rfl

inductive Agree (l : Likeness) {α : Type} : Except Failure α → Except Failure α → Prop
  | ok (a : α) : Agree l (.ok a) (.ok a)
  | error {f f' : Failure} (h : l.rel f f') : Agree l (.error f) (.error f')

namespace Agree

variable {l : Likeness} {α β : Type} {r r' : Except Failure α}

theorem refl (r : Except Failure α) : Agree l r r := by
  cases r with
  | error f => exact .error (l.refl f)
  | ok a => exact .ok a

theorem eq (h : Agree .same r r') : r' = r := by
  cases h with
  | ok a => rfl
  | error h => rw [show _ = _ from h]

theorem map (h : Agree l r r') (k : α → β) : Agree l (r.map k) (r'.map k) := by
  cases h with
  | ok a => exact .ok _
  | error h => exact .error h

theorem bind (h : Agree l r r') (k : α → Except Failure β) : Agree l (r >>= k) (r' >>= k) := by
  cases h with
  | ok a => exact refl _
  | error h => exact .error h

end Agree

inductive Disturbance.Agree (l : Likeness) {α : Type} :
    Option (Disturbance α) → Option (Disturbance α) → Prop
  | none : Agree l none none
  | silent (delay : Option Number) (cancels : Bool) :
    Agree l (some ⟨delay, cancels, .none⟩) (some ⟨delay, cancels, .none⟩)
  | answering (delay : Option Number) (cancels : Bool) {r r' : Except Failure α}
    (h : AssertionGrant.Agree l r r') :
    Agree l (some ⟨delay, cancels, some r⟩) (some ⟨delay, cancels, some r'⟩)

theorem Disturbance.Agree.refl {l : Likeness} {α : Type} (d : Option (Disturbance α)) :
    Agree l d d := by
  rcases d with _ | ⟨delay, cancels, _ | r⟩
  · exact .none
  · exact .silent delay cancels
  · exact .answering delay cancels (.refl r)

structure Disturbances.Agree (l : Likeness) (d d' : Disturbances) : Prop where
  key : Disturbance.Agree l d.key d'.key
  keys : Disturbance.Agree l d.keys d'.keys
  scopes : Disturbance.Agree l d.scopes d'.scopes
  isUsed : Disturbance.Agree l d.isUsed d'.isUsed
  mark : Disturbance.Agree l d.mark d'.mark

theorem Disturbances.Agree.refl {l : Likeness} (d : Disturbances) : Agree l d d :=
  ⟨.refl _, .refl _, .refl _, .refl _, .refl _⟩

section Beside

variable {cache cache' : Cache} (store : ReplayStore) (now : Instant)

theorem Cache.toOption_exists? (ho : cache'.outage.isSome = cache.outage.isSome)
    (ht : cache'.texts = cache.texts) (key : Text) :
    (cache'.exists? now key).toOption = (cache.exists? now key).toOption.map fun r =>
      (r.1, { cache' with texts := r.2.texts }) := by
  obtain ⟨outage, givesText, fields, texts⟩ := cache
  obtain ⟨outage', givesText', fields', texts'⟩ := cache'
  obtain rfl : texts' = texts := ht
  cases outage <;> cases outage' <;> cases ho <;> rfl

theorem Cache.toOption_setFresh (ho : cache'.outage.isSome = cache.outage.isSome)
    (ht : cache'.texts = cache.texts) (key : Text) (value : String) (seconds : Nat) :
    (cache'.setFresh now key value seconds).toOption =
      (cache.setFresh now key value seconds).toOption.map fun r =>
        (r.1, { cache' with texts := r.2.texts }) := by
  obtain ⟨outage, givesText, fields, texts⟩ := cache
  obtain ⟨outage', givesText', fields', texts'⟩ := cache'
  obtain rfl : texts' = texts := ht
  cases outage <;> cases outage' <;> cases ho
  · unfold setFresh reach dropEnded
    simp only [bind, Except.bind]
    split <;> rfl
  · rfl

theorem Records.reply_beside (cache cache' : Cache) (ho : cache'.outage.isSome = cache.outage.isSome)
    (ht : cache'.texts = cache.texts) (call : ReplayCall) :
    Records.reply ⟨store, cache'⟩ now call =
      ((Records.reply ⟨store, cache⟩ now call).1,
        ⟨(Records.reply ⟨store, cache⟩ now call).2.store,
          { cache' with texts := (Records.reply ⟨store, cache⟩ now call).2.cache.texts }⟩) := by
  obtain ⟨outage', givesText', fields', texts'⟩ := cache'
  obtain rfl : texts' = cache.texts := ht
  cases store with
  | memory threshold ledger => cases call <;> rfl
  | shared =>
    cases call with
    | isUsed jti =>
      have h := Cache.toOption_exists? now ho rfl (ReplayStore.cacheKey jti)
      unfold reply ReplayStore.isUsed
      dsimp only
      generalize Cache.exists? _ now _ = x, cache.exists? now _ = y at h ⊢
      cases x <;> cases y <;> cases h <;> rfl
    | mark jti expiry =>
      have h := Cache.toOption_setFresh now ho rfl (ReplayStore.cacheKey jti) expiry.offsetText
        (ReplayStore.keepSeconds now expiry)
      unfold reply ReplayStore.mark
      dsimp only
      generalize Cache.setFresh _ now _ _ _ = x, cache.setFresh now _ _ _ = y at h ⊢
      cases x <;> cases y <;> cases h <;> rfl

end Beside

structure Stores where
  keys : KeyStore
  records : Records

def Site.stores (s : Site) : Stores := ⟨s.keys, s.records⟩

def Site.within (s : Site) (context : Option Context) : Site := { s with context }

def Stores.replied (a : Stores) (now : Instant) (call : ReplayCall) : Except Failure Bool × Stores :=
  (((a.records.reply now call).1).mapError .fault, ⟨a.keys, (a.records.reply now call).2⟩)

theorem Stores.replied_beside {a b : Stores} (now : Instant)
    (hstore : b.records.store = a.records.store)
    (ho : b.records.cache.outage.isSome = a.records.cache.outage.isSome)
    (ht : b.records.cache.texts = a.records.cache.texts) (call : ReplayCall) :
    ∃ answer store texts,
      a.replied now call = (answer, ⟨a.keys, store, { a.records.cache with texts }⟩) ∧
      b.replied now call = (answer, ⟨b.keys, store, { b.records.cache with texts }⟩) := by
  obtain ⟨keys, store, cache⟩ := a
  obtain ⟨keys', store', cache'⟩ := b
  obtain rfl : store' = store := hstore
  have hleft := Records.reply_beside store' now cache cache rfl rfl call
  have hright := Records.reply_beside store' now cache cache' ho ht call
  have houtcome {keys : KeyStore} {cache : Cache} {r : Except Fault Bool × Records}
      (h : Records.reply ⟨store', cache⟩ now call = r) :
      replied ⟨keys, store', cache⟩ now call = (r.1.mapError .fault, ⟨keys, r.2⟩) := by
    rw [← h]
    rfl
  exact ⟨_, _, _, houtcome hleft, houtcome hright⟩

variable [Json.Nesting]

namespace Stores

variable (a : Stores) (issuer subject : Text)

def found (keyId : Json) : Except Failure KeyStore.Stored :=
  (a.keys.find a.records.cache (.str issuer) (.str subject) keyId).mapError .fault

def listed : Except Failure (List Jwk) :=
  (a.keys.list a.records.cache (.str issuer) (.str subject)).mapError .fault

end Stores

/-- A relation of stores that answer alike for some issuers and subjects and for some identifiers of
assertions, and that stay related whatever is asked of the replay records. It may count on some
disturbances only. -/
structure Pairing where
  likeness : Likeness
  now : Instant
  disturbed : Disturbances → Prop := fun _ => True
  stores : Stores → Stores → Prop
  tenant : Text → Text → Prop
  jti : Text → Prop
  found : ∀ {a b issuer subject}, stores a b → tenant issuer subject →
    ∀ keyId, Agree likeness (a.found issuer subject keyId) (b.found issuer subject keyId)
  listed : ∀ {a b issuer subject}, stores a b → tenant issuer subject →
    Agree likeness (a.listed issuer subject) (b.listed issuer subject)
  replied : ∀ {a b call}, stores a b → jti call.jti →
    Agree likeness (a.replied now call).1 (b.replied now call).1 ∧
      stores (a.replied now call).2 (b.replied now call).2

structure Site.Paired (p : Pairing) (s t : Site) : Prop where
  left : s.now = p.now
  right : t.now = p.now
  uptime : t.uptime = s.uptime
  context : t.context = s.context
  random : t.randomText = s.randomText
  draws : t.draws = s.draws
  disturbances : Disturbances.Agree p.likeness s.disturbances t.disturbances
  disturbed : p.disturbed s.disturbances
  stores : p.stores s.stores t.stores

variable {p : Pairing}

theorem Site.Paired.logged {s t : Site} (h : Site.Paired p s t) (log log' : List LogEntry) :
    Site.Paired p { s with log } { t with log := log' } :=
  ⟨h.left, h.right, h.uptime, h.context, h.random, h.draws, h.disturbances, h.disturbed, h.stores⟩

namespace Act

variable {α β : Type}

def Parallel (p : Pairing) (x y : Act α) : Prop :=
  ∀ s t, Site.Paired p s t →
    Agree p.likeness (x.outcome s).1 (y.outcome t).1 ∧ Site.Paired p (x.outcome s).2 (y.outcome t).2

section Rows

theorem parallel_pure (a : α) : Parallel p (pure a) (pure a) := fun _ _ h => ⟨.ok a, h⟩

theorem parallel_throw {f f' : Failure} (hf : p.likeness.rel f f') :
    Parallel p (throw f : Act α) (throw f') := fun _ _ h => ⟨.error hf, h⟩

theorem parallel_orFail (r : Except Failure α) : Parallel p (orFail r) (orFail r) := by
  intro s t h
  rw [outcome_orFail, outcome_orFail]
  exact ⟨.refl r, h⟩

theorem parallel_refusing (r : Except Refusal α) : Parallel p (refusing r) (refusing r) := by
  intro s t h
  rw [outcome_refusing, outcome_refusing]
  exact ⟨.refl _, h⟩

theorem parallel_faulting (r : Except Fault α) : Parallel p (faulting r) (faulting r) := by
  intro s t h
  rw [outcome_faulting, outcome_faulting]
  exact ⟨.refl _, h⟩

/-- What the first steps give is the same in both runs, so the second may depend on it. -/
theorem Parallel.bind {x y : Act α} {k k' : α → Act β} (hx : Parallel p x y)
    (hk : ∀ a, (∃ s t s', Site.Paired p s t ∧ x.Gives s a s') → Parallel p (k a) (k' a)) :
    Parallel p (x >>= k) (y >>= k') := by
  intro s t h
  obtain ⟨ha, hs⟩ := hx s t h
  rw [outcome_bind, outcome_bind]
  rcases hout : x.outcome s with ⟨r, s'⟩
  rcases hout' : y.outcome t with ⟨r', t'⟩
  rw [hout, hout'] at ha hs
  cases ha with
  | ok a => exact hk a ⟨s, t, s', h, hout⟩ s' t' hs
  | error hf => exact ⟨.error hf, hs⟩

theorem Parallel.tryCatch {x y : Act α} {k k' : Failure → Act α} (hx : Parallel p x y)
    (hk : ∀ f f', p.likeness.rel f f' → Parallel p (k f) (k' f')) :
    Parallel p (tryCatch x k) (tryCatch y k') := by
  intro s t h
  obtain ⟨ha, hs⟩ := hx s t h
  rw [outcome_tryCatch, outcome_tryCatch]
  rcases hout : x.outcome s with ⟨r, s'⟩
  rcases hout' : y.outcome t with ⟨r', t'⟩
  rw [hout, hout'] at ha hs
  cases ha with
  | ok a => exact ⟨.ok a, hs⟩
  | error hf => exact hk _ _ hf s' t' hs

theorem parallel_note (entry entry' : LogEntry) : Parallel p (note entry) (note entry') :=
  fun _ _ h => ⟨.ok (), h.logged _ _⟩

theorem parallel_get_bind {k : Site → Act α}
    (hk : ∀ s t, Site.Paired p s t → Parallel p (k s) (k t)) :
    Parallel p (get >>= k) (get >>= k) := by
  intro s t h
  rw [outcome_bind, outcome_get, outcome_bind, outcome_get]
  exact hk s t h s t h

theorem parallel_checkContext : Parallel p checkContext checkContext := by
  refine parallel_get_bind fun s t h => ?_
  rw [h.context, h.uptime]
  split
  · exact parallel_pure _
  · exact parallel_refusing _

end Rows

section Storages

variable {s t : Site} {issuer subject : Text}

theorem paired_called (h : Site.Paired p s t) {d d' : Option (Disturbance α)}
    (hd : Disturbance.Agree p.likeness d d') (call : StorageCall) :
    Site.Paired p (called s call d) (called t call d') := by
  have hrecorded : Site.Paired p { s with calls := s.calls ++ [call] }
      { t with calls := t.calls ++ [call] } :=
    ⟨h.left, h.right, h.uptime, h.context, h.random, h.draws, h.disturbances, h.disturbed, h.stores⟩
  have hdisturb (delay : Option Number) (cancels : Bool) (o o' : Option (Except Failure α))
      (s t : Site) (h : Site.Paired p s t) :
      Site.Paired p (s.disturb ⟨delay, cancels, o⟩) (t.disturb ⟨delay, cancels, o'⟩) := by
    have hu (n : Number) : t.uptime.add n.toBinary64 = s.uptime.add n.toBinary64 := by
      rw [h.uptime]
    have hc : t.context.map Context.cancel = s.context.map Context.cancel := by rw [h.context]
    cases delay <;> cases cancels
    · exact h
    · exact ⟨h.left, h.right, h.uptime, hc, h.random, h.draws, h.disturbances, h.disturbed, h.stores⟩
    · exact ⟨h.left, h.right, hu _, h.context, h.random, h.draws, h.disturbances, h.disturbed, h.stores⟩
    · exact ⟨h.left, h.right, hu _, hc, h.random, h.draws, h.disturbances, h.disturbed, h.stores⟩
  cases hd with
  | none => exact hrecorded
  | silent delay cancels => exact hdisturb delay cancels _ _ _ _ hrecorded
  | answering delay cancels hr => exact hdisturb delay cancels _ _ _ _ hrecorded

theorem Parallel.of_answering {x : Act α} (own : Site → Except Failure α × Site)
    (call : StorageCall) (disturbance : Disturbances → Option (Disturbance α))
    (hx : ∀ s, x.outcome s = answering own call (disturbance s.disturbances) s)
    (hd : ∀ {d d'}, Disturbances.Agree p.likeness d d' →
      Disturbance.Agree p.likeness (disturbance d) (disturbance d'))
    (hown : ∀ s t, Site.Paired p s t →
      Agree p.likeness (own s).1 (own t).1 ∧ Site.Paired p (own s).2 (own t).2) :
    Parallel p x x := by
  intro s t h
  have hpair := hd h.disturbances
  have hcalled := paired_called h hpair call
  rw [hx, hx]
  generalize disturbance s.disturbances = d, disturbance t.disturbances = d' at hpair hcalled
  cases hpair with
  | none => exact hown _ _ hcalled
  | silent delay cancels => exact hown _ _ hcalled
  | answering delay cancels hr => exact ⟨hr, hcalled⟩

theorem parallel_storage {call : StorageCall}
    {disturbance : Disturbances → Option (Disturbance α)} {answer : Act α}
    (hd : ∀ {d d'}, Disturbances.Agree p.likeness d d' →
      Disturbance.Agree p.likeness (disturbance d) (disturbance d'))
    (ha : Parallel p answer answer) :
    Parallel p (storage call disturbance answer) (storage call disturbance answer) :=
  .of_answering answer.outcome call disturbance
    (fun s => outcome_storage_eq s call disturbance answer) hd ha

theorem parallel_storedKey (hn : p.tenant issuer subject) (keyId : Json) :
    Parallel p (storedKey issuer subject keyId) (storedKey issuer subject keyId) := by
  intro s t h
  rw [outcome_storedKey_eq, outcome_storedKey_eq]
  exact ⟨p.found h.stores hn keyId, h⟩

theorem parallel_publicKey {keyId : Text} (h : Parallel p
    (storedKey issuer subject (.str keyId)) (storedKey issuer subject (.str keyId))) :
    Parallel p (publicKey issuer subject keyId) (publicKey issuer subject keyId) :=
  parallel_storage (·.key) (h.bind fun _ _ => parallel_pure _)

theorem parallel_publicKeyScopes {keyId : Json}
    (h : Parallel p (storedKey issuer subject keyId) (storedKey issuer subject keyId)) :
    Parallel p (publicKeyScopes issuer subject keyId) (publicKeyScopes issuer subject keyId) :=
  parallel_storage (·.scopes) (h.bind fun _ _ => parallel_pure _)

theorem parallel_publicKeys (hn : p.tenant issuer subject) :
    Parallel p (publicKeys issuer subject) (publicKeys issuer subject) := by
  refine parallel_storage (·.keys) fun s t h => ?_
  rw [outcome_listing, outcome_listing]
  exact ⟨(p.listed h.stores hn).map _, h⟩

theorem paired_recording (call : ReplayCall) (h : Site.Paired p s t) (hj : p.jti call.jti) :
    Site.Paired p (recording s (s.records.reply s.now call).2)
      (recording t (t.records.reply t.now call).2) := by
  rw [h.left, h.right]
  exact ⟨h.left, h.right, h.uptime, h.context, h.random, h.draws, h.disturbances, h.disturbed,
    (p.replied h.stores hj).2⟩

theorem agree_reply (call : ReplayCall) (h : Site.Paired p s t) (hj : p.jti call.jti) :
    Agree p.likeness ((s.records.reply s.now call).1.mapError .fault)
      ((t.records.reply t.now call).1.mapError .fault) := by
  rw [h.left, h.right]
  exact (p.replied h.stores hj).1

theorem parallel_isUsed {jti : Text} (hj : p.jti jti) : Parallel p (isUsed jti) (isUsed jti) := by
  refine .of_answering (fun s => lookUpAt s jti) (.isUsed jti) (·.isUsed)
    (fun s => outcome_isUsed_eq s jti) (·.isUsed) fun s t h => ?_
  rw [lookUpAt_eq, lookUpAt_eq]
  exact ⟨(agree_reply (.isUsed jti) h hj).map _, paired_recording (.isUsed jti) h hj⟩

theorem parallel_mark {jti : Text} (hj : p.jti jti) (expiry : Instant) :
    Parallel p (mark jti expiry) (mark jti expiry) := by
  refine .of_answering (fun s => markAt s jti expiry) (.mark jti expiry) (·.mark)
    (fun s => outcome_mark_eq s jti expiry) (·.mark) fun s t h => ?_
  rw [markAt_eq, markAt_eq]
  exact ⟨(agree_reply (.mark jti expiry) h hj).bind _, paired_recording (.mark jti expiry) h hj⟩

end Storages
end Act
end AssertionGrant
