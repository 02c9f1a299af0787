import AssertionGrant.Proofs.Frames
import AssertionGrant.Proofs.Rules
import AssertionGrant.Proofs.Signatures

/-! The gates that an assertion passes, one after the other: each leaves the site untouched up to
the mark of the identifier, and what they let pass is what the text of the assertion spells. -/

namespace AssertionGrant
open Act

section Reading

variable [Json.Nesting]

def Assertion.claimed (raw : String) : Except Refusal Claims := do
  let t ← Assertion.parse raw
  let fields ← Assertion.readClaims t
  Assertion.claimsOf fields

def AccessRequest.claimed? (r : AccessRequest) : Option Claims :=
  match Grant.assertionOf r with
  | .ok raw => (Assertion.claimed raw).toOption
  | .error _ => none

theorem Assertion.readClaims_of_verify {t : Compact} {key : Jwk} {allowed : List Text}
    {fields : Fields} (h : verify t key.material allowed = .ok fields) :
    readClaims t = .ok fields := mapError_eq_ok.mpr (verify_eq_ok.mp h).2

end Reading

namespace SingleUse

theorem quiet_isUsed (jti : Text) : (isUsed jti).Quiet := by
  refine quiet_checkContext.bind fun _ => (Act.quiet_isUsed jti).tryCatch fun f => ?_
  cases f with
  | refusal r => exact quiet_throw _
  | fault f => exact (quiet_note _).bind fun _ => quiet_throw _

def afterFailure (jti : Text) : Failure → Act Unit
  | .refusal r => do
    if r.kind = .replayed then Act.note (.markRefused jti)
    throw (.refusal r)
  | .fault f => do
    Act.note (.markFailed jti f.text)
    throw (.internal f.text)

theorem quiet_afterFailure (jti : Text) (f : Failure) : (afterFailure jti f).Quiet := by
  unfold afterFailure
  split
  · split
    · exact (quiet_note _).bind fun _ => quiet_throw _
    · exact quiet_throw _
  · exact (quiet_note _).bind fun _ => quiet_throw _

theorem afterFailure_not_gives {jti : Text} {f : Failure} {s s' : Site} {u : Unit} :
    ¬ (afterFailure jti f).Gives s u s' := by
  unfold afterFailure
  split
  · split
    · simp only [gives_bind, gives_throw, and_false, exists_false, not_false_eq_true]
    · exact gives_throw
  · simp only [gives_bind, gives_throw, and_false, exists_false, not_false_eq_true]

variable {jti : Text} {expiry : Instant} {s s' : Site}

theorem untouched_of_mark_fails {f : Failure} (h : (mark jti expiry).Fails s f s') :
    Site.Untouched s s' := by
  rcases fails_bind.mp h with h | ⟨_, s₁, h₁, h⟩
  · exact quiet_checkContext.of_fails h
  · obtain rfl := of_checkContext_gives h₁
    obtain ⟨f', s₂, h₂, h⟩ := fails_tryCatch.mp h
    exact (Act.untouched_of_mark_fails h₂).trans ((quiet_afterFailure jti f').of_fails h)

theorem markedBy_of_mark_gives {u : Unit} (hf : s.Faithful) (h : (mark jti expiry).Gives s u s') :
    Site.MarkedBy jti expiry s s' := by
  obtain ⟨_, s₁, h₁, h⟩ := gives_bind.mp h
  obtain rfl := of_checkContext_gives h₁
  rcases gives_tryCatch.mp h with h | ⟨f, s₂, -, h⟩
  · exact Act.markedBy_of_mark_gives hf h
  · exact absurd h afterFailure_not_gives

theorem untouched_of_pretended {u : Unit} (hf : ¬ s.Faithful) (h : (mark jti expiry).Gives s u s') :
    Site.Untouched s s' := by
  obtain ⟨_, s₁, h₁, h⟩ := gives_bind.mp h
  obtain rfl := of_checkContext_gives h₁
  rcases gives_tryCatch.mp h with h | ⟨f, s₂, -, h⟩
  · have hpretends : s.disturbances.mark.bind (·.outcome) = some (.ok ()) := not_not.mp hf
    unfold Gives at h
    rw [outcome_mark, hpretends] at h
    obtain ⟨-, rfl⟩ := Prod.mk.inj h
    exact untouched_called s _ _
  · exact absurd h afterFailure_not_gives

end SingleUse

namespace Claims

variable {settings : Settings} {c : Claims} {now : Instant}

theorem quiet_validate (settings : Settings) (c : Claims) (now : Instant) :
    (validate settings c now).Quiet := by
  refine (quiet_refusing _).bind fun _ => ?_
  split
  · refine quiet_checkContext.bind fun _ => (SingleUse.quiet_isUsed _).bind fun _ => ?_
    split
    · exact (quiet_note _).bind fun _ => (quiet_throw _).bind fun _ => quiet_pure _
    · exact quiet_pure _
  · exact quiet_pure _

theorem checkStateless_of_validate {s s' : Site} {e : Instant}
    (h : (validate settings c now).Gives s e s') : checkStateless settings c now = .ok e := by
  obtain ⟨e', s₁, h₁, h⟩ := gives_bind.mp h
  obtain ⟨he, rfl⟩ := gives_refusing.mp h₁
  suffices e' = e by
    subst this
    exact mapError_eq_ok.mp he
  split at h
  · obtain ⟨_, _, -, h⟩ := gives_bind.mp h
    obtain ⟨used, _, -, h⟩ := gives_bind.mp h
    split at h
    · simp only [gives_bind, gives_throw, false_and, and_false, exists_false] at h
    · exact (gives_pure.mp h).1
  · exact (gives_pure.mp h).1

end Claims

namespace Signer

variable {t : Compact} {allowed : List Text} {issuer subject : Text} {s s' : Site}
  {key : Jwk} {payload : Fields}

theorem quiet_lookupFailed {α : Type} (issuer subject : Text) (entry : Text → LogEntry)
    (f : Failure) : (lookupFailed issuer subject entry f : Act α).Quiet := by
  unfold lookupFailed
  split
  · exact quiet_throw _
  · exact (quiet_note _).bind fun _ => quiet_throw _

theorem lookupFailed_not_gives {α : Type} {entry : Text → LogEntry} {f : Failure} {a : α} :
    ¬ (lookupFailed issuer subject entry f : Act α).Gives s a s' := by
  unfold lookupFailed
  split
  · exact gives_throw
  · simp only [gives_bind, gives_throw, and_false, exists_false, not_false_eq_true]

variable [Json.Nesting]

theorem quiet_findNamed (keyId : Text) : (findNamed t allowed issuer subject keyId).Quiet := by
  refine quiet_checkContext.bind fun _ => ?_
  refine Quiet.bind ((quiet_publicKey _ _ _).tryCatch fun _ => quiet_lookupFailed _ _ _ _)
    fun given => ?_
  refine quiet_checkContext.bind fun _ => ?_
  cases given with
  | none => exact quiet_throw _
  | some key =>
    dsimp only
    split
    · exact quiet_pure _
    · exact (quiet_note _).bind fun _ => quiet_throw _
    · exact quiet_throw _

theorem quiet_firstVerifying (keys : List (Option Jwk)) :
    (firstVerifying t allowed issuer subject keys).Quiet := by
  induction keys with
  | nil => exact quiet_throw _
  | cons given rest ih =>
    refine quiet_checkContext.bind fun _ => ?_
    cases given with
    | none => exact quiet_throw _
    | some key =>
      dsimp only
      split
      · exact (quiet_note _).bind fun _ => quiet_pure _
      · exact ih
      · exact quiet_throw _

theorem quiet_find : (find t allowed issuer subject).Quiet := by
  unfold find
  dsimp only
  split
  · exact quiet_findNamed _
  · refine quiet_checkContext.bind fun _ => ?_
    refine Quiet.bind ((quiet_publicKeys _ _).tryCatch fun _ => quiet_lookupFailed _ _ _ _)
      fun given => ?_
    cases given with
    | none => exact quiet_throw _
    | some keys => exact quiet_firstVerifying keys

theorem verify_of_findNamed {keyId : Text}
    (h : (findNamed t allowed issuer subject keyId).Gives s (key, payload) s') :
    Assertion.verify t key.material allowed = .ok payload := by
  obtain ⟨_, _, -, h⟩ := gives_bind.mp h
  obtain ⟨given, _, -, h⟩ := gives_bind.mp h
  obtain ⟨_, _, -, h⟩ := gives_bind.mp h
  cases given with
  | none => exact absurd h gives_throw
  | some key' =>
    dsimp only at h
    split at h
    · next hv =>
      obtain ⟨e, -⟩ := gives_pure.mp h
      obtain ⟨rfl, rfl⟩ := Prod.mk.inj e
      exact hv
    · simp only [gives_bind, gives_throw, and_false, exists_false] at h
    · exact absurd h gives_throw

theorem verify_of_firstVerifying {keys : List (Option Jwk)}
    (h : (firstVerifying t allowed issuer subject keys).Gives s (key, payload) s') :
    Assertion.verify t key.material allowed = .ok payload := by
  induction keys generalizing s with
  | nil => exact absurd h gives_throw
  | cons given rest ih =>
    obtain ⟨_, _, -, h⟩ := gives_bind.mp h
    cases given with
    | none => exact absurd h gives_throw
    | some key' =>
      dsimp only at h
      split at h
      · next hv =>
        obtain ⟨_, _, -, h⟩ := gives_bind.mp h
        obtain ⟨e, -⟩ := gives_pure.mp h
        obtain ⟨rfl, rfl⟩ := Prod.mk.inj e
        exact hv
      · exact ih h
      · exact absurd h gives_throw

theorem verify_of_find (h : (find t allowed issuer subject).Gives s (key, payload) s') :
    Assertion.verify t key.material allowed = .ok payload := by
  unfold find at h
  dsimp only at h
  split at h
  · exact verify_of_findNamed h
  · obtain ⟨_, _, -, h⟩ := gives_bind.mp h
    obtain ⟨given, _, -, h⟩ := gives_bind.mp h
    cases given with
    | none => exact absurd h gives_throw
    | some keys => exact verify_of_firstVerifying h

end Signer

namespace Grant

variable [Json.Nesting] {g : Grant} {r : AccessRequest} {s s' : Site} {c : Claims} {keyId : Json}
  {expiry : Instant} {raw : String}

theorem quiet_verifiedClaims (g : Grant) (raw : String) : (g.verifiedClaims raw).Quiet := by
  refine (quiet_refusing _).bind fun _ => (quiet_refusing _).bind fun _ => ?_
  refine Signer.quiet_find.bind fun _ => (quiet_refusing _).bind fun c => ?_
  refine quiet_get_bind fun s => ?_
  exact ((Claims.quiet_validate _ c s.now).bind fun _ => quiet_pure _) s

theorem quiet_scopesOf (c : Claims) (keyId : Json) : (scopesOf c keyId).Quiet := by
  refine quiet_checkContext.bind fun _ => ?_
  refine (quiet_publicKeyScopes _ _ _).tryCatch fun f => ?_
  split <;> exact quiet_throw _

theorem quiet_authorize (g : Grant) (r : AccessRequest) (c : Claims) (keyId : Json) :
    (g.authorize r c keyId).Quiet := by
  refine (quiet_scopesOf c keyId).bind fun _ => (quiet_orFail _).bind fun _ => ?_
  split
  · exact quiet_orFail _
  · exact quiet_pure _

/-- Verified claims are the ones that the text spells, and they keep the rules that need no
storage. -/
theorem claimed_of_verifiedClaims (h : (g.verifiedClaims raw).Gives s (c, keyId, expiry) s') :
    Assertion.claimed raw = .ok c ∧
      Claims.checkStateless g.settings c s.now = .ok expiry := by
  obtain ⟨t, s₁, h₁, h⟩ := gives_bind.mp h
  obtain ⟨ht, rfl⟩ := gives_refusing.mp h₁
  obtain ⟨⟨issuer, subject⟩, s₂, h₂, h⟩ := gives_bind.mp h
  obtain ⟨-, rfl⟩ := gives_refusing.mp h₂
  obtain ⟨⟨key, payload⟩, s₃, h₃, h⟩ := gives_bind.mp h
  obtain ⟨c', s₄, h₄, h⟩ := gives_bind.mp h
  obtain ⟨hc, rfl⟩ := gives_refusing.mp h₄
  obtain ⟨t₀, s₅, h₅, h⟩ := gives_bind.mp h
  obtain ⟨rfl, rfl⟩ := gives_get.mp h₅
  obtain ⟨e, s₆, h₆, h⟩ := gives_bind.mp h
  obtain ⟨he, -⟩ := gives_pure.mp h
  obtain ⟨rfl, -, rfl⟩ := by simpa only [Prod.mk.injEq] using he
  have hp := Assertion.readClaims_of_verify (Signer.verify_of_find h₃)
  refine ⟨bind_eq_ok.mpr ⟨t, ht, bind_eq_ok.mpr ⟨payload, hp, hc⟩⟩, ?_⟩
  rw [← (Signer.quiet_find.of_gives h₃).now]
  exact Claims.checkStateless_of_validate h₆

end Grant
end AssertionGrant
