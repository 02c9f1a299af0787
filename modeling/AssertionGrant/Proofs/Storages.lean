import AssertionGrant.Proofs.Findings
import AssertionGrant.Proofs.Replies

/-! What the storages of a site would answer, whatever is asked. An answer comes from a disturbance
or from the store itself; a call gives it and leaves the site as it was, apart from the time that
passes and what the call drops or marks. -/

namespace AssertionGrant

def Disturbance.answer {α : Type} (d : Option (Disturbance α)) (own : Except Failure α) :
    Except Failure α := (d.bind (·.outcome)).getD own

namespace Site
open Act

section Answers

variable [Json.Nesting]

def keyAt (s : Site) (issuer subject keyId : Text) : Except Failure (Option Jwk) :=
  Disturbance.answer s.disturbances.key
    (((s.keys.find s.cache (.str issuer) (.str subject) (.str keyId)).mapError .fault).map
      fun stored => some stored.key)

def keysAt (s : Site) (issuer subject : Text) : Except Failure (Option (List (Option Jwk))) :=
  Disturbance.answer s.disturbances.keys
    (((s.keys.list s.cache (.str issuer) (.str subject)).mapError .fault).map
      fun keys => some (keys.map some))

def scopesAt (s : Site) (issuer subject : Text) (keyId : Json) : Except Failure Json :=
  Disturbance.answer s.disturbances.scopes
    (((s.keys.find s.cache (.str issuer) (.str subject) keyId).mapError .fault).map
      fun stored => .arr stored.scopes)

end Answers

def usedAt (s : Site) (jti : Text) : Except Failure Json :=
  Disturbance.answer s.disturbances.isUsed (lookUpAt s jti).1

def markedAt (s : Site) (jti : Text) (expiry : Instant) : Except Failure Unit :=
  Disturbance.answer s.disturbances.mark (markAt s jti expiry).1

def after (s : Site) (call : StorageCall) : Site :=
  match call with
  | .key .. => called s call s.disturbances.key
  | .keys .. => called s call s.disturbances.keys
  | .scopes .. => called s call s.disturbances.scopes
  | .isUsed _ => called s call s.disturbances.isUsed
  | .mark .. => called s call s.disturbances.mark

variable {s s' : Site} {jti : Text} {expiry : Instant}

theorem after_eq (s : Site) (call : StorageCall) :
    ∃ uptime context, s.after call = { s with uptime, context, calls := s.calls ++ [call] } := by
  have h {α : Type} (d : Option (Disturbance α)) : ∃ uptime context,
      called s call d = { s with uptime, context, calls := s.calls ++ [call] } := by
    rcases d with _ | ⟨_ | _, _ | _, _⟩ <;> exact ⟨_, _, rfl⟩
  cases call <;> exact h _

theorem after_of_undisturbed (h : s.disturbances = {}) (call : StorageCall) :
    s.after call = { s with calls := s.calls ++ [call] } := by
  cases call <;> simp only [after, h, called]

end Site

namespace Act

variable {α : Type} {issuer subject : Text} {jti : Text} {expiry : Instant}

def answering (own : Site → Except Failure α × Site) (call : StorageCall)
    (d : Option (Disturbance α)) (s : Site) : Except Failure α × Site :=
  match d.bind (·.outcome) with
  | none => own (called s call d)
  | some r => (r, called s call d)

section Outcomes

variable (s : Site)

theorem outcome_storage_eq (call : StorageCall)
    (disturbance : Disturbances → Option (Disturbance α)) (own : Act α) :
    (storage call disturbance own).outcome s =
      answering own.outcome call (disturbance s.disturbances) s := by
  rw [outcome_storage]
  unfold answering
  cases (disturbance s.disturbances).bind (·.outcome) <;> rfl

theorem outcome_isUsed_eq (jti : Text) : (isUsed jti).outcome s =
    answering (fun s => lookUpAt s jti) (.isUsed jti) s.disturbances.isUsed s := by
  rw [outcome_isUsed]
  unfold answering
  cases s.disturbances.isUsed.bind (·.outcome) <;> rfl

theorem outcome_mark_eq (jti : Text) (expiry : Instant) : (mark jti expiry).outcome s =
    answering (fun s => markAt s jti expiry) (.mark jti expiry) s.disturbances.mark s := by
  rw [outcome_mark]
  unfold answering
  cases s.disturbances.mark.bind (·.outcome) <;> rfl

end Outcomes

theorem fst_answering (own : Site → Except Failure α × Site) (call : StorageCall)
    (d : Option (Disturbance α)) (s : Site) :
    (answering own call d s).1 = Disturbance.answer d (own (called s call d)).1 := by
  unfold answering Disturbance.answer
  cases d.bind (·.outcome) <;> rfl

section Reading

variable [Json.Nesting] {part : KeyStore.Stored → α} {keyId : Json} (s : Site)

theorem outcome_storedKey_eq (issuer subject : Text) (keyId : Json) :
    (storedKey issuer subject keyId).outcome s =
      ((s.keys.find s.cache (.str issuer) (.str subject) keyId).mapError .fault, s) := by
  unfold storedKey
  rw [outcome_bind, outcome_get]
  exact outcome_faulting s _

theorem outcome_of_storedKey {call : StorageCall}
    {disturbance : Disturbances → Option (Disturbance α)}
    (h : s.after call = called s call (disturbance s.disturbances)) :
    (storage call disturbance (storedKey issuer subject keyId >>= fun stored =>
        pure (part stored))).outcome s =
      (Disturbance.answer (disturbance s.disturbances)
        (((s.keys.find s.cache (.str issuer) (.str subject) keyId).mapError .fault).map part),
        s.after call) := by
  obtain ⟨_, _, e⟩ := s.after_eq call
  rw [outcome_storage_eq]
  unfold answering Disturbance.answer
  rw [← h]
  cases (disturbance s.disturbances).bind (·.outcome) with
  | some r => rfl
  | none =>
    dsimp only
    rw [outcome_bind, outcome_storedKey_eq, e]
    dsimp only
    cases s.keys.find s.cache (.str issuer) (.str subject) keyId <;> rfl

theorem outcome_publicKey (issuer subject keyId : Text) :
    (publicKey issuer subject keyId).outcome s =
      (s.keyAt issuer subject keyId, s.after (.key issuer subject keyId)) :=
  outcome_of_storedKey s rfl

theorem outcome_publicKeyScopes (issuer subject : Text) (keyId : Json) :
    (publicKeyScopes issuer subject keyId).outcome s =
      (s.scopesAt issuer subject keyId, s.after (.scopes issuer subject keyId)) :=
  outcome_of_storedKey s rfl

theorem outcome_listing (issuer subject : Text) :
    (do
      let s ← get
      let keys ← faulting (s.keys.list s.cache (.str issuer) (.str subject))
      pure (some (keys.map some)) : Act (Option (List (Option Jwk)))).outcome s =
    (((s.keys.list s.cache (.str issuer) (.str subject)).mapError .fault).map
      fun keys => some (keys.map some), s) := by
  rw [outcome_bind, outcome_get]
  dsimp only
  rw [outcome_bind, outcome_faulting]
  cases s.keys.list s.cache (.str issuer) (.str subject) <;> rfl

theorem outcome_publicKeys (issuer subject : Text) :
    (publicKeys issuer subject).outcome s =
      (s.keysAt issuer subject, s.after (.keys issuer subject)) := by
  obtain ⟨_, _, e⟩ := s.after_eq (.keys issuer subject)
  have h : s.after (.keys issuer subject) =
      called s (.keys issuer subject) s.disturbances.keys := rfl
  unfold publicKeys
  rw [outcome_storage_eq]
  unfold answering Site.keysAt Disturbance.answer
  rw [← h]
  cases s.disturbances.keys.bind (·.outcome) with
  | some r => rfl
  | none =>
    dsimp only
    rw [outcome_listing, e]
    rfl

end Reading

section Replays

def recording (s : Site) (records : Records) : Site :=
  { s with replays := records.store, cache := records.cache }

theorem lookUpAt_eq (t : Site) (jti : Text) : lookUpAt t jti =
    (((t.records.reply t.now (.isUsed jti)).1.mapError .fault).map .bool,
      recording t (t.records.reply t.now (.isUsed jti)).2) := by
  unfold lookUpAt Records.reply Records.after
  simp only [Site.records]
  rcases t.replays.isUsed t.cache t.now jti with _ | ⟨_, _, _⟩ <;> rfl

def unlessMarked : Bool → Except Failure Unit
  | true => .ok ()
  | false => .error (.refuse .replayed)

theorem markAt_eq (t : Site) (jti : Text) (expiry : Instant) : markAt t jti expiry =
    ((t.records.reply t.now (.mark jti expiry)).1.mapError .fault >>= unlessMarked,
      recording t (t.records.reply t.now (.mark jti expiry)).2) := by
  unfold markAt Records.reply Records.after
  simp only [Site.records]
  rcases t.replays.mark t.cache t.now jti expiry with _ | ⟨_ | _, _, _⟩ <;> rfl

variable (s : Site) (jti : Text) (expiry : Instant)

theorem fst_outcome_isUsed : ((isUsed jti).outcome s).1 = s.usedAt jti := by
  obtain ⟨_, _, _, e⟩ := called_eq s (.isUsed jti) s.disturbances.isUsed
  have h : (lookUpAt (called s (.isUsed jti) s.disturbances.isUsed) jti).1 =
      (lookUpAt s jti).1 := by
    rw [e, lookUpAt_eq, lookUpAt_eq]
    rfl
  rw [outcome_isUsed_eq, fst_answering, h]
  rfl

theorem fst_outcome_mark : ((mark jti expiry).outcome s).1 = s.markedAt jti expiry := by
  obtain ⟨_, _, _, e⟩ := called_eq s (.mark jti expiry) s.disturbances.mark
  have h : (markAt (called s (.mark jti expiry) s.disturbances.mark) jti expiry).1 =
      (markAt s jti expiry).1 := by
    rw [e, markAt_eq, markAt_eq]
    rfl
  rw [outcome_mark_eq, fst_answering, h]
  rfl

theorem snd_answering {own : Site → Except Failure α × Site} (call : StorageCall)
    (d : Option (Disturbance α)) (h : ∀ t, ∃ records, (own t).2 = recording t records) :
    ∃ records, (answering own call d s).2 = recording (called s call d) records := by
  unfold answering
  cases d.bind (·.outcome) with
  | none => exact h _
  | some r => exact ⟨(called s call d).records, rfl⟩

theorem snd_outcome_isUsed :
    ∃ records, ((isUsed jti).outcome s).2 = recording (s.after (.isUsed jti)) records := by
  rw [outcome_isUsed_eq]
  exact snd_answering s _ _ fun t => ⟨_, congrArg Prod.snd (lookUpAt_eq t jti)⟩

theorem snd_outcome_mark :
    ∃ records, ((mark jti expiry).outcome s).2 = recording (s.after (.mark jti expiry)) records := by
  rw [outcome_mark_eq]
  exact snd_answering s _ _ fun t => ⟨_, congrArg Prod.snd (markAt_eq t jti expiry)⟩

end Replays
end Act

namespace Site
open Act

variable {s s' : Site} {issuer subject : Text}

/-! A site that is untouched answers as before. -/

section Reading

variable [Json.Nesting]

theorem Untouched.keyAt (h : Untouched s s') (hd : s.replays.Distinct) (keyId : Text) :
    s'.keyAt issuer subject keyId = s.keyAt issuer subject keyId := by
  unfold Site.keyAt
  rw [h.disturbances, h.find hd]

theorem Untouched.keysAt (h : Untouched s s') (hd : s.replays.Distinct) :
    s'.keysAt issuer subject = s.keysAt issuer subject := by
  unfold Site.keysAt
  rw [h.disturbances, h.list hd]

theorem Untouched.scopesAt (h : Untouched s s') (hd : s.replays.Distinct) (keyId : Json) :
    s'.scopesAt issuer subject keyId = s.scopesAt issuer subject keyId := by
  unfold Site.scopesAt
  rw [h.disturbances, h.find hd]

end Reading

theorem Untouched.usedAt (h : Untouched s s') (hd : s.replays.Distinct) (jti : Text) :
    s'.usedAt jti = s.usedAt jti := by
  have hreply := ((h.records hd).reply hd (.isUsed jti)).1
  unfold Site.usedAt
  rw [h.disturbances, lookUpAt_eq, lookUpAt_eq, h.now, hreply]

theorem Untouched.markedAt (h : Untouched s s') (hd : s.replays.Distinct) (jti : Text)
    (expiry : Instant) : s'.markedAt jti expiry = s.markedAt jti expiry := by
  have hreply := ((h.records hd).reply hd (.mark jti expiry)).1
  unfold Site.markedAt
  rw [h.disturbances, markAt_eq, markAt_eq, h.now, hreply]

end Site
end AssertionGrant
