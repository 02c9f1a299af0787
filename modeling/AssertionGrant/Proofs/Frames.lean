import AssertionGrant.Grant
import AssertionGrant.Proofs.Records
import AssertionGrant.Proofs.Steps

/-! What a step leaves of the site alone. All steps of a request but the mark of an identifier
leave the site as it was, apart from what is logged, recorded as a call or dropped because it had
ended. -/

namespace AssertionGrant

namespace Site

def records (s : Site) : Records := ⟨s.replays, s.cache⟩

/-- The clock, the keys and the disturbances are the same, and so are the live records. -/
structure Untouched (s s' : Site) : Prop where
  now : s'.now = s.now
  keys : s'.keys = s.keys
  disturbances : s'.disturbances = s.disturbances
  records : s.replays.Distinct → s.records.Alike s.now s'.records

variable {s s' s'' : Site}

theorem Untouched.of_eq (now : s'.now = s.now) (keys : s'.keys = s.keys)
    (disturbances : s'.disturbances = s.disturbances) (records : s'.records = s.records) :
    Untouched s s' := by
  refine ⟨now, keys, disturbances, fun h => ?_⟩
  rw [records]
  exact .refl h

theorem Untouched.refl (s : Site) : Untouched s s := .of_eq rfl rfl rfl rfl

theorem Untouched.distinct (h : Untouched s s') (hd : s.replays.Distinct) :
    s'.replays.Distinct := (h.records hd).distinct

theorem Untouched.trans (h : Untouched s s') (h' : Untouched s' s'') : Untouched s s'' where
  now := h'.now.trans h.now
  keys := h'.keys.trans h.keys
  disturbances := h'.disturbances.trans h.disturbances
  records hd := (h.records hd).trans (h.now ▸ h'.records (h.distinct hd))

end Site

namespace Act

variable {α β : Type}

def Quiet (x : Act α) : Prop := ∀ s, Site.Untouched s (x.outcome s).2

theorem Quiet.of_gives {x : Act α} {s s' : Site} {a : α} (h : x.Quiet) (hg : x.Gives s a s') :
    Site.Untouched s s' := by
  have := h s
  rwa [hg] at this

theorem Quiet.of_fails {x : Act α} {s s' : Site} {f : Failure} (h : x.Quiet)
    (hf : x.Fails s f s') : Site.Untouched s s' := by
  have := h s
  rwa [hf] at this

theorem quiet_pure (a : α) : (pure a : Act α).Quiet := fun s => .refl s

theorem quiet_throw (f : Failure) : (throw f : Act α).Quiet := fun s => .refl s

theorem quiet_orFail (r : Except Failure α) : (orFail r).Quiet := by
  intro s
  rw [outcome_orFail]
  exact .refl s

theorem quiet_refusing (r : Except Refusal α) : (refusing r).Quiet := by
  intro s
  rw [outcome_refusing]
  exact .refl s

theorem quiet_faulting (r : Except Fault α) : (faulting r).Quiet := by
  intro s
  rw [outcome_faulting]
  exact .refl s

theorem Quiet.bind {x : Act α} {k : α → Act β} (hx : x.Quiet) (hk : ∀ a, (k a).Quiet) :
    (x >>= k).Quiet := by
  intro s
  rw [outcome_bind]
  rcases h : x.outcome s with ⟨f | a, s'⟩
  · exact hx.of_fails h
  · exact (hx.of_gives h).trans (hk a s')

theorem Quiet.tryCatch {x : Act α} {k : Failure → Act α} (hx : x.Quiet)
    (hk : ∀ f, (k f).Quiet) : (tryCatch x k).Quiet := by
  intro s
  rw [outcome_tryCatch]
  rcases h : x.outcome s with ⟨f | a, s'⟩
  · exact (hx.of_fails h).trans (hk f s')
  · exact hx.of_gives h

theorem quiet_get_bind {k : Site → Act α} (hk : ∀ s, Site.Untouched s ((k s).outcome s).2) :
    (get >>= k).Quiet := by
  intro s
  rw [outcome_bind, outcome_get]
  exact hk s

theorem quiet_note (entry : LogEntry) : (note entry).Quiet :=
  fun _ => .of_eq rfl rfl rfl rfl

theorem quiet_checkContext : checkContext.Quiet := by
  refine quiet_get_bind fun s => ?_
  split
  · exact quiet_pure _ s
  · exact quiet_refusing _ s

theorem of_checkContext_gives {s s' : Site} {u : Unit} (h : checkContext.Gives s u s') :
    s = s' := by
  obtain ⟨t, s₁, h₁, h⟩ := gives_bind.mp h
  obtain ⟨rfl, rfl⟩ := gives_get.mp h₁
  split at h
  · exact (gives_pure.mp h).2
  · exact (gives_refusing.mp h).2

def called {α : Type} (s : Site) (call : StorageCall) : Option (Disturbance α) → Site
  | none => { s with calls := s.calls ++ [call] }
  | some d => Site.disturb { s with calls := s.calls ++ [call] } d

theorem called_eq (s : Site) (call : StorageCall) (d : Option (Disturbance α)) :
    ∃ uptime context calls, called s call d = { s with uptime, context, calls } := by
  rcases d with _ | ⟨_ | _, _ | _, _⟩ <;> exact ⟨_, _, _, rfl⟩

theorem untouched_called (s : Site) (call : StorageCall) (d : Option (Disturbance α)) :
    Site.Untouched s (called s call d) := by
  obtain ⟨_, _, _, e⟩ := called_eq s call d
  rw [e]
  exact .of_eq rfl rfl rfl rfl

theorem outcome_storage (call : StorageCall) (disturbance : Disturbances → Option (Disturbance α))
    (answer : Act α) (s : Site) :
    (storage call disturbance answer).outcome s =
      match (disturbance s.disturbances).bind (·.outcome) with
      | none => answer.outcome (called s call (disturbance s.disturbances))
      | some r => (r, called s call (disturbance s.disturbances)) := by
  unfold storage
  rw [outcome_bind, outcome_modify]
  dsimp only
  rw [outcome_bind, outcome_get]
  dsimp only
  cases disturbance s.disturbances with
  | none => rfl
  | some d =>
    dsimp only [Option.bind_some]
    rw [outcome_bind, outcome_set]
    rcases d.outcome with _ | _ | _ <;> rfl

theorem quiet_storage {call : StorageCall} {disturbance : Disturbances → Option (Disturbance α)}
    {answer : Act α} (h : answer.Quiet) : (storage call disturbance answer).Quiet := by
  intro s
  rw [outcome_storage]
  split
  · exact (untouched_called s _ _).trans (h _)
  · exact untouched_called s _ _

section Keys

variable [Json.Nesting]

theorem quiet_storedKey (issuer subject : Text) (keyId : Json) :
    (storedKey issuer subject keyId).Quiet := quiet_get_bind fun s => quiet_faulting _ s

theorem quiet_publicKey (issuer subject keyId : Text) :
    (publicKey issuer subject keyId).Quiet :=
  quiet_storage ((quiet_storedKey _ _ _).bind fun _ => quiet_pure _)

theorem quiet_publicKeys (issuer subject : Text) : (publicKeys issuer subject).Quiet :=
  quiet_storage <| quiet_get_bind fun s =>
    (Quiet.bind (quiet_faulting _) fun _ => quiet_pure _) s

theorem quiet_publicKeyScopes (issuer subject : Text) (keyId : Json) :
    (publicKeyScopes issuer subject keyId).Quiet :=
  quiet_storage ((quiet_storedKey _ _ _).bind fun _ => quiet_pure _)

end Keys

def lookUpAt (t : Site) (jti : Text) : Except Failure Json × Site :=
  match t.replays.isUsed t.cache t.now jti with
  | .error f => (.error (.fault f), t)
  | .ok (used, replays, cache) => (.ok (.bool used), { t with replays, cache })

def markAt (t : Site) (jti : Text) (expiry : Instant) : Except Failure Unit × Site :=
  match t.replays.mark t.cache t.now jti expiry with
  | .error f => (.error (.fault f), t)
  | .ok (marked, replays, cache) =>
    (if marked then .ok () else .error (.refuse .replayed), { t with replays, cache })

theorem outcome_isUsed (jti : Text) (s : Site) :
    (isUsed jti).outcome s =
      match s.disturbances.isUsed.bind (·.outcome) with
      | none => lookUpAt (called s (.isUsed jti) s.disturbances.isUsed) jti
      | some r => (r, called s (.isUsed jti) s.disturbances.isUsed) := by
  unfold isUsed
  rw [outcome_storage]
  dsimp only
  cases s.disturbances.isUsed.bind (·.outcome) with
  | some r => rfl
  | none =>
    generalize called s (.isUsed jti) s.disturbances.isUsed = t
    dsimp only
    unfold lookUpAt
    rw [outcome_bind, outcome_get]
    dsimp only
    rw [outcome_bind, outcome_faulting]
    rcases t.replays.isUsed t.cache t.now jti with _ | ⟨_, _, _⟩ <;> rfl

theorem outcome_mark (jti : Text) (expiry : Instant) (s : Site) :
    (mark jti expiry).outcome s =
      match s.disturbances.mark.bind (·.outcome) with
      | none => markAt (called s (.mark jti expiry) s.disturbances.mark) jti expiry
      | some r => (r, called s (.mark jti expiry) s.disturbances.mark) := by
  unfold mark
  rw [outcome_storage]
  dsimp only
  cases s.disturbances.mark.bind (·.outcome) with
  | some r => rfl
  | none =>
    generalize called s (.mark jti expiry) s.disturbances.mark = t
    dsimp only
    unfold markAt
    rw [outcome_bind, outcome_get]
    dsimp only
    rw [outcome_bind, outcome_faulting]
    rcases t.replays.mark t.cache t.now jti expiry with _ | ⟨_ | _, _, _⟩ <;> rfl

theorem untouched_lookUpAt (t : Site) (jti : Text) :
    Site.Untouched t (lookUpAt t jti).2 := by
  unfold lookUpAt
  split
  · exact .refl t
  · next used replays cache h =>
    exact ⟨rfl, rfl, rfl, fun hd => Records.alike_of_isUsed_eq_ok (b := ⟨replays, cache⟩) hd h⟩

theorem quiet_isUsed (jti : Text) : (isUsed jti).Quiet := by
  intro s
  rw [outcome_isUsed]
  split
  · exact (untouched_called s _ _).trans (untouched_lookUpAt _ _)
  · exact untouched_called s _ _

end Act

namespace Site

structure MarkedBy (jti : Text) (expiry : Instant) (s s' : Site) : Prop where
  now : s'.now = s.now
  keys : s'.keys = s.keys
  disturbances : s'.disturbances = s.disturbances
  up : s.replays.Distinct → ¬ s.records.Down
  fresh : s.replays.Distinct → ¬ s.records.Holds s.now jti
  records : s.replays.Distinct →
    s.records.Marked s.now jti (s.replays.endOf s.now expiry) s'.records

/-- No disturbance passes off as marked what was not marked. -/
def Faithful (s : Site) : Prop :=
  (s.disturbances.mark.bind (·.outcome)) ≠ some (.ok ())

variable {s s' s'' : Site} {jti : Text} {expiry : Instant}

theorem Untouched.faithful (h : Untouched s s') (hf : s.Faithful) : s'.Faithful := by
  unfold Faithful
  rwa [h.disturbances]

theorem MarkedBy.distinct (h : MarkedBy jti expiry s s') (hd : s.replays.Distinct) :
    s'.replays.Distinct := (h.records hd).distinct

theorem Untouched.trans_markedBy (h : Untouched s s') (h' : MarkedBy jti expiry s' s'') :
    MarkedBy jti expiry s s'' where
  now := h'.now.trans h.now
  keys := h'.keys.trans h.keys
  disturbances := h'.disturbances.trans h.disturbances
  up hd hdown := h'.up (h.distinct hd) ((h.records hd).down.mpr hdown)
  fresh hd hn := by
    refine h'.fresh (h.distinct hd) ?_
    rw [h.now]
    exact ((h.records hd).holds _ _ (Int.le_refl _)).mpr hn
  records hd := by
    have hm := h'.records (h.distinct hd)
    have he : s'.replays.endOf s.now expiry = s.replays.endOf s.now expiry :=
      ReplayStore.endOf_congr (h.records hd).threshold _ _
    rw [h.now, he] at hm
    exact (h.records hd).trans_marked hm

theorem MarkedBy.faithful (h : MarkedBy jti expiry s s') (hf : s.Faithful) : s'.Faithful := by
  unfold Faithful
  rwa [h.disturbances]

end Site

namespace Act

variable {s s' : Site} {jti : Text} {expiry : Instant}

theorem markAt_error {t : Site} {f : Failure} (h : markAt t jti expiry = (.error f, s')) :
    Site.Untouched t s' := by
  unfold markAt at h
  split at h
  · obtain ⟨-, rfl⟩ := Prod.mk.inj h
    exact .refl t
  · next marked replays cache hm =>
    obtain ⟨hr, rfl⟩ := Prod.mk.inj h
    refine ⟨rfl, rfl, rfl, fun hd => ?_⟩
    rcases Records.mark_eq_ok (a := t.records) (b := ⟨replays, cache⟩) hd hm with
      ⟨-, -, ha⟩ | ⟨rfl, -⟩
    · exact ha
    · cases hr

theorem markAt_ok {t : Site} {u : Unit} (h : markAt t jti expiry = (.ok u, s')) :
    Site.MarkedBy jti expiry t s' := by
  unfold markAt at h
  split at h
  · cases h
  · next marked replays cache hm =>
    obtain ⟨hr, rfl⟩ := Prod.mk.inj h
    have hmark (hd : t.replays.Distinct) :
        ¬ t.records.Down ∧ ¬ t.records.Holds t.now jti ∧
          t.records.Marked t.now jti (t.replays.endOf t.now expiry) ⟨replays, cache⟩ := by
      rcases Records.mark_eq_ok (a := t.records) (b := ⟨replays, cache⟩) hd hm with
        ⟨rfl, -, -⟩ | ⟨-, hup, hn, hr⟩
      · cases hr
      · exact ⟨hup, hn, hr⟩
    exact ⟨rfl, rfl, rfl, fun hd => (hmark hd).1, fun hd => (hmark hd).2.1,
      fun hd => (hmark hd).2.2⟩

theorem untouched_of_mark_fails {f : Failure} (h : (mark jti expiry).Fails s f s') :
    Site.Untouched s s' := by
  unfold Fails at h
  rw [outcome_mark] at h
  split at h
  · exact (untouched_called s _ _).trans (markAt_error h)
  · obtain ⟨-, rfl⟩ := Prod.mk.inj h
    exact untouched_called s _ _

theorem markedBy_of_mark_gives {u : Unit} (hf : s.Faithful) (h : (mark jti expiry).Gives s u s') :
    Site.MarkedBy jti expiry s s' := by
  unfold Gives at h
  rw [outcome_mark] at h
  split at h
  · have hm := markAt_ok h
    obtain ⟨_, _, _, e⟩ := called_eq s (.mark jti expiry) s.disturbances.mark
    rw [e] at hm
    exact ⟨hm.now, hm.keys, hm.disturbances, hm.up, hm.fresh, hm.records⟩
  · next r hr =>
    obtain ⟨rfl, -⟩ := Prod.mk.inj h
    exact absurd hr hf

end Act

end AssertionGrant
