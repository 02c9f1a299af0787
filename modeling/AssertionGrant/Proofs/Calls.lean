import AssertionGrant.Proofs.Handling

/-! The calls that a step makes to the storages. A step that gives a result has made all calls that
it is there to make, in their order, and one that fails has made a first part of them. -/

namespace AssertionGrant

namespace Act

variable {α β : Type} {call : StorageCall} {plan : List StorageCall}

def Silent (x : Act α) : Prop := ∀ s, (x.outcome s).2.calls = s.calls

structure Makes (x : Act α) (plan : List StorageCall) : Prop where
  gives : ∀ {s a s'}, x.Gives s a s' → s'.calls = s.calls ++ plan
  fails : ∀ {s f s'}, x.Fails s f s' → ∃ made, made <+: plan ∧ s'.calls = s.calls ++ made

theorem Silent.of_gives {x : Act α} {s s' : Site} {a : α} (h : x.Silent) (hg : x.Gives s a s') :
    s'.calls = s.calls := by
  have := h s
  rwa [hg] at this

theorem Silent.of_fails {x : Act α} {s s' : Site} {f : Failure} (h : x.Silent)
    (hf : x.Fails s f s') : s'.calls = s.calls := by
  have := h s
  rwa [hf] at this

theorem silent_pure (a : α) : (pure a : Act α).Silent := fun _ => rfl

theorem silent_throw (f : Failure) : (throw f : Act α).Silent := fun _ => rfl

theorem silent_get : (get : Act Site).Silent := fun _ => rfl

theorem silent_orFail (r : Except Failure α) : (orFail r).Silent := by
  intro s
  rw [outcome_orFail]

theorem silent_refusing (r : Except Refusal α) : (refusing r).Silent := by
  intro s
  rw [outcome_refusing]

theorem silent_faulting (r : Except Fault α) : (faulting r).Silent := by
  intro s
  rw [outcome_faulting]

theorem silent_note (entry : LogEntry) : (note entry).Silent := fun _ => rfl

theorem Silent.bind {x : Act α} {k : α → Act β} (hx : x.Silent) (hk : ∀ a, (k a).Silent) :
    (x >>= k).Silent := by
  intro s
  rw [outcome_bind]
  rcases h : x.outcome s with ⟨f | a, s'⟩
  · exact hx.of_fails h
  · exact (hk a s').trans (hx.of_gives h)

theorem silent_checkContext : checkContext.Silent := by
  refine silent_get.bind fun s => ?_
  split
  · exact silent_pure _
  · exact silent_refusing _

theorem Silent.makes {x : Act α} (hx : x.Silent) : x.Makes [] where
  gives h := by rw [hx.of_gives h, List.append_nil]
  fails h := ⟨[], List.nil_prefix, by rw [hx.of_fails h, List.append_nil]⟩

theorem Silent.bind_makes {x : Act α} {k : α → Act β} (hx : x.Silent)
    (hk : ∀ a, (k a).Makes plan) : (x >>= k).Makes plan where
  gives h := by
    obtain ⟨a, s₁, h₁, h⟩ := gives_bind.mp h
    rw [(hk a).gives h, hx.of_gives h₁]
  fails h := by
    rcases fails_bind.mp h with h | ⟨a, s₁, h₁, h⟩
    · exact ⟨[], List.nil_prefix, by rw [hx.of_fails h, List.append_nil]⟩
    · rw [← hx.of_gives h₁]
      exact (hk a).fails h

theorem Makes.bind_silent {x : Act α} {k : α → Act β} (hx : x.Makes plan)
    (hk : ∀ a, (k a).Silent) : (x >>= k).Makes plan where
  gives h := by
    obtain ⟨a, s₁, h₁, h⟩ := gives_bind.mp h
    rw [(hk a).of_gives h, hx.gives h₁]
  fails h := by
    rcases fails_bind.mp h with h | ⟨a, s₁, h₁, h⟩
    · exact hx.fails h
    · exact ⟨plan, List.prefix_rfl, by rw [(hk a).of_fails h, hx.gives h₁]⟩

theorem Makes.tryCatch {x : Act α} {k : Failure → Act α} (hx : x.Makes plan)
    (hk : ∀ f, (k f).Silent) (hnone : ∀ f s a s', ¬ (k f).Gives s a s') :
    (tryCatch x k).Makes plan where
  gives h := by
    rcases gives_tryCatch.mp h with h | ⟨f, s₁, -, h⟩
    · exact hx.gives h
    · exact absurd h (hnone f _ _ _)
  fails h := by
    obtain ⟨f, s₁, h₁, h⟩ := fails_tryCatch.mp h
    rw [(hk f).of_fails h]
    exact hx.fails h₁

theorem calls_called (s : Site) (call : StorageCall) (d : Option (Disturbance α)) :
    (called s call d).calls = s.calls ++ [call] := by
  rcases d with _ | ⟨_ | _, _ | _, _⟩ <;> rfl

theorem Makes.of_outcome {x : Act α} (h : ∀ s, (x.outcome s).2.calls = s.calls ++ plan) :
    x.Makes plan where
  gives {s a s'} hg := by
    have := h s
    rwa [hg] at this
  fails {s f s'} hf := by
    have := h s
    rw [hf] at this
    exact ⟨plan, List.prefix_rfl, this⟩

theorem makes_storage {disturbance : Disturbances → Option (Disturbance α)} {answer : Act α}
    (h : answer.Silent) : (storage call disturbance answer).Makes [call] := by
  refine .of_outcome fun s => ?_
  rw [outcome_storage]
  split
  · rw [h, calls_called]
  · exact calls_called s call _

section Keys

variable [Json.Nesting]

theorem silent_storedKey (issuer subject : Text) (keyId : Json) :
    (storedKey issuer subject keyId).Silent := silent_get.bind fun _ => silent_faulting _

theorem makes_publicKey (issuer subject keyId : Text) :
    (publicKey issuer subject keyId).Makes [.key issuer subject keyId] :=
  makes_storage ((silent_storedKey _ _ _).bind fun _ => silent_pure _)

theorem makes_publicKeys (issuer subject : Text) :
    (publicKeys issuer subject).Makes [.keys issuer subject] :=
  makes_storage (silent_get.bind fun _ => (silent_faulting _).bind fun _ => silent_pure _)

theorem makes_publicKeyScopes (issuer subject : Text) (keyId : Json) :
    (publicKeyScopes issuer subject keyId).Makes [.scopes issuer subject keyId] :=
  makes_storage ((silent_storedKey _ _ _).bind fun _ => silent_pure _)

end Keys

theorem makes_isUsed (jti : Text) : (isUsed jti).Makes [.isUsed jti] := by
  have hlookUp (t : Site) : (lookUpAt t jti).2.calls = t.calls := by
    unfold lookUpAt
    split <;> rfl
  refine .of_outcome fun s => ?_
  rw [outcome_isUsed]
  split
  · rw [hlookUp, calls_called]
  · exact calls_called s (.isUsed jti) _

theorem makes_mark (jti : Text) (expiry : Instant) :
    (mark jti expiry).Makes [.mark jti expiry] := by
  have hmark (t : Site) : (markAt t jti expiry).2.calls = t.calls := by
    unfold markAt
    split <;> rfl
  refine .of_outcome fun s => ?_
  rw [outcome_mark]
  split
  · rw [hmark, calls_called]
  · exact calls_called s (.mark jti expiry) _

end Act

open Act

namespace SingleUse

def afterNoAnswer (jti : Text) : Failure → Act Json
  | .refusal r => throw (.refusal r)
  | .fault f => do
    Act.note (.lookupFailed jti f.text)
    throw (.internal f.text)

theorem isUsed_eq (jti : Text) : isUsed jti =
    Act.checkContext >>= fun _ => tryCatch (Act.isUsed jti) (afterNoAnswer jti) := rfl

theorem silent_afterNoAnswer (jti : Text) (f : Failure) : (afterNoAnswer jti f).Silent := by
  unfold afterNoAnswer
  split
  · exact silent_throw _
  · exact (silent_note _).bind fun _ => silent_throw _

theorem afterNoAnswer_not_gives {jti : Text} {f : Failure} {s s' : Site} {used : Json} :
    ¬ (afterNoAnswer jti f).Gives s used s' := by
  unfold afterNoAnswer
  split
  · exact gives_throw
  · simp only [gives_bind, gives_throw, and_false, exists_false, not_false_eq_true]

theorem makes_isUsed (jti : Text) : (isUsed jti).Makes [.isUsed jti] := by
  rw [isUsed_eq]
  exact silent_checkContext.bind_makes fun _ => (Act.makes_isUsed jti).tryCatch
    (silent_afterNoAnswer jti) fun f s a s' => afterNoAnswer_not_gives

theorem makes_mark (jti : Text) (expiry : Instant) :
    (mark jti expiry).Makes [.mark jti expiry] := by
  refine silent_checkContext.bind_makes fun _ => (Act.makes_mark jti expiry).tryCatch
    (k := afterFailure jti) (fun f => ?_) fun f s a s' => afterFailure_not_gives
  unfold afterFailure
  split
  · split
    · exact (silent_note _).bind fun _ => silent_throw _
    · exact silent_throw _
  · exact (silent_note _).bind fun _ => silent_throw _

end SingleUse

namespace Signer

variable {t : Compact} {allowed : List Text} {issuer subject : Text}

/-- The call with which the key of an assertion is looked for. -/
def callFor (t : Compact) (issuer subject : Text) : StorageCall :=
  if (Assertion.keyId t).isEmpty then .keys issuer subject
  else .key issuer subject (Assertion.keyId t)

theorem silent_lookupFailed {α : Type} (issuer subject : Text) (entry : Text → LogEntry)
    (f : Failure) : (lookupFailed issuer subject entry f : Act α).Silent := by
  unfold lookupFailed
  split
  · exact silent_throw _
  · exact (silent_note _).bind fun _ => silent_throw _

variable [Json.Nesting]

theorem makes_findNamed (keyId : Text) :
    (findNamed t allowed issuer subject keyId).Makes [.key issuer subject keyId] := by
  refine silent_checkContext.bind_makes fun _ => ?_
  refine Makes.bind_silent ((makes_publicKey _ _ _).tryCatch (silent_lookupFailed _ _ _)
    fun f s a s' => lookupFailed_not_gives) fun given => ?_
  refine silent_checkContext.bind fun _ => ?_
  cases given with
  | none => exact silent_throw _
  | some key =>
    dsimp only
    split
    · exact silent_pure _
    · exact (silent_note _).bind fun _ => silent_throw _
    · exact silent_throw _

theorem silent_firstVerifying (keys : List (Option Jwk)) :
    (firstVerifying t allowed issuer subject keys).Silent := by
  induction keys with
  | nil => exact silent_throw _
  | cons given rest ih =>
    refine silent_checkContext.bind fun _ => ?_
    cases given with
    | none => exact silent_throw _
    | some key =>
      dsimp only
      split
      · exact (silent_note _).bind fun _ => silent_pure _
      · exact ih
      · exact silent_throw _

theorem makes_find : (find t allowed issuer subject).Makes [callFor t issuer subject] := by
  unfold find callFor
  dsimp only
  split
  · next h =>
    rw [if_neg (by simpa using h)]
    exact makes_findNamed _
  · next h =>
    rw [if_pos (by simpa using h)]
    refine silent_checkContext.bind_makes fun _ => ?_
    refine Makes.bind_silent ((makes_publicKeys _ _).tryCatch (silent_lookupFailed _ _ _)
      fun f s a s' => lookupFailed_not_gives) fun given => ?_
    cases given with
    | none => exact silent_throw _
    | some keys => exact silent_firstVerifying keys

end Signer

namespace Claims

variable {settings : Settings} {c : Claims} {now : Instant}

def lookUps (c : Claims) : List StorageCall := if c.jwtId = [] then [] else [.isUsed c.jwtId]

def marks (c : Claims) (expiry : Instant) : List StorageCall :=
  if c.jwtId = [] then [] else [.mark c.jwtId expiry]

theorem makes_validate {expiry : Instant} (h : checkStateless settings c now = .ok expiry) :
    (validate settings c now).Makes c.lookUps := by
  unfold validate lookUps
  rw [h]
  refine (silent_refusing _).bind_makes fun _ => ?_
  by_cases hj : c.jwtId = []
  · rw [if_pos hj, hj]
    exact (silent_pure _).makes
  · have hne : c.jwtId.isEmpty = false := by simpa using hj
    rw [if_neg hj, hne]
    refine silent_checkContext.bind_makes fun _ => (SingleUse.makes_isUsed _).bind_silent ?_
    intro used
    split
    · exact (silent_note _).bind fun _ => (silent_throw _).bind fun _ => silent_pure _
    · exact silent_pure _

theorem silent_validate_of_violation {v : Violation}
    (h : checkStateless settings c now = .error v) : (validate settings c now).Silent := by
  intro s
  unfold validate
  rw [h, outcome_bind, outcome_refusing]
  rfl

end Claims

namespace Grant

theorem makes_mark {c : Claims} {expiry : Instant} :
    (if !c.jwtId.isEmpty then SingleUse.mark c.jwtId expiry else pure ()).Makes
      (c.marks expiry) := by
  unfold Claims.marks
  by_cases hj : c.jwtId = []
  · rw [if_pos hj, hj]
    exact (silent_pure _).makes
  · have hne : c.jwtId.isEmpty = false := by simpa using hj
    rw [if_neg hj, hne]
    exact SingleUse.makes_mark _ _

variable [Json.Nesting]

theorem makes_scopesOf (c : Claims) (keyId : Json) :
    (scopesOf c keyId).Makes [.scopes c.issuer c.subject keyId] := by
  refine silent_checkContext.bind_makes fun _ => (makes_publicKeyScopes _ _ _).tryCatch ?_ ?_
  · intro f
    split <;> exact silent_throw _
  · intro f s a s' h
    split at h <;> exact gives_throw h

theorem makes_authorize (g : Grant) (r : AccessRequest) (c : Claims) (keyId : Json) :
    (g.authorize r c keyId).Makes [.scopes c.issuer c.subject keyId] := by
  refine (makes_scopesOf c keyId).bind_silent fun _ => (silent_orFail _).bind fun _ => ?_
  split
  · exact silent_orFail _
  · exact silent_pure _

theorem calls_handled (g : Grant) (r : AccessRequest) (s : Site) :
    (g.handled r s).2.calls = ((g.clear r).outcome s).2.calls := by
  obtain ⟨log, e⟩ := snd_handled g r s
  rw [e]

end Grant
end AssertionGrant
