import AssertionGrant.Proofs.Itinerary
import AssertionGrant.Proofs.Undisturbed
import AssertionGrant.Proofs.Verdicts

/-! What a storage hands over to try on a token, and what comes of it. While the request at hand is
live, the keys that are handed over decide: the first one that does not just fail to verify the
token, or none. -/

namespace AssertionGrant
open Act

namespace Signer

section LookUp

variable {α : Type} {issuer subject : Text} {s s' : Site} {x : Act α} {r : Except Failure α}
  {entry : Text → LogEntry}

theorem gives_lookUp (issuer subject : Text) (entry : Text → LogEntry) {a : α}
    (hx : x.outcome s = (r, s')) (hr : r = .ok a) :
    (tryCatch x (lookupFailed issuer subject entry)).Gives s a s' := by
  rw [hr] at hx
  exact gives_tryCatch.mpr (.inl hx)

theorem of_lookUp_gives {a : α} (hx : x.outcome s = (r, s'))
    {s'' : Site} (h : (tryCatch x (lookupFailed issuer subject entry)).Gives s a s'') :
    r = .ok a ∧ s' = s'' := by
  rcases gives_tryCatch.mp h with h | ⟨f, s₁, -, h⟩
  · exact Prod.mk.inj (hx.symm.trans h)
  · exact absurd h lookupFailed_not_gives

theorem lookUp_refuses {f : Failure}
    (h : (tryCatch x (lookupFailed issuer subject entry)).Fails s f s') :
    ∃ q, f = .refusal q := by
  obtain ⟨f', s₁, -, h⟩ := fails_tryCatch.mp h
  unfold lookupFailed at h
  split at h
  · next hserver =>
    obtain ⟨hf, -⟩ := Prod.mk.inj h
    obtain rfl := Except.error.inj hf
    cases f' with
    | refusal q => exact ⟨q, rfl⟩
    | fault e => cases hserver
  · obtain ⟨hf, -⟩ := Prod.mk.inj h
    exact ⟨_, (Except.error.inj hf).symm⟩

end LookUp

end Signer

variable [Json.Nesting]

def Site.offers (s : Site) (t : Compact) (issuer subject : Text) :
    Except Failure (Option (List (Option Jwk))) :=
  if (Assertion.keyId t).isEmpty then s.keysAt issuer subject
  else (s.keyAt issuer subject (Assertion.keyId t)).map fun given => some [given]

namespace Signer

variable {t : Compact} {allowed : List Text} {issuer subject : Text} {s s' : Site}
  {keys : List (Option Jwk)}

def verdict (t : Compact) (allowed : List Text) :
    List (Option Jwk) → Option (Except Fault (Jwk × Fields))
  | [] => none
  | none :: _ => some (.error notKey)
  | some key :: rest =>
    match Assertion.verify t key.material allowed with
    | .ok payload => some (.ok (key, payload))
    | .error (.refusal _) => verdict t allowed rest
    | .error (.fault e) => some (.error e)

def concluded (issuer subject : Text) (debug : Option Text) :
    Option (Except Fault (Jwk × Fields)) → Except Failure (Jwk × Fields)
  | none => .error (.refusal (notFound issuer subject debug))
  | some r => r.mapError .fault

theorem outcome_firstVerifying (t : Compact) (allowed : List Text) (issuer subject : Text)
    (hlive : s.Live) (keys : List (Option Jwk)) :
    ∃ s', (firstVerifying t allowed issuer subject keys).outcome s =
      (concluded issuer subject none (verdict t allowed keys), s') := by
  induction keys with
  | nil => exact ⟨s, rfl⟩
  | cons given rest ih =>
    unfold firstVerifying
    rw [outcome_bind, gives_checkContext hlive]
    dsimp only
    cases given with
    | none => exact ⟨s, rfl⟩
    | some key =>
      unfold verdict
      dsimp only
      cases Assertion.verify t key.material allowed with
      | ok payload => exact ⟨_, rfl⟩
      | error f =>
        cases f with
        | refusal q => exact ih
        | fault e => exact ⟨s, rfl⟩

theorem outcome_findNamed {keyId : Text} {given : Option Jwk} (hlive : s.Live)
    (hgiven : s.keyAt issuer subject keyId = .ok given)
    (hlive' : (s.after (.key issuer subject keyId)).Live) :
    ∃ debug s', (findNamed t allowed issuer subject keyId).outcome s =
      (concluded issuer subject debug (verdict t allowed [given]), s') := by
  have hlookUp := gives_lookUp issuer subject (.keyMissing issuer subject keyId)
    (outcome_publicKey s issuer subject keyId) hgiven
  unfold findNamed
  rw [outcome_bind, gives_checkContext hlive]
  dsimp only
  rw [outcome_bind, hlookUp]
  dsimp only
  rw [outcome_bind, gives_checkContext hlive']
  dsimp only
  cases given with
  | none => exact ⟨none, _, rfl⟩
  | some key =>
    unfold verdict
    dsimp only
    cases Assertion.verify t key.material allowed with
    | ok payload => exact ⟨none, _, rfl⟩
    | error f =>
      cases f with
      | refusal q => exact ⟨q.debug, _, rfl⟩
      | fault e => exact ⟨none, _, rfl⟩

theorem outcome_find (allowed : List Text) (hlive : s.Live)
    (hoffers : s.offers t issuer subject = .ok (some keys))
    (hlive' : (s.after (callFor t issuer subject)).Live) :
    ∃ debug s', (find t allowed issuer subject).outcome s =
      (concluded issuer subject debug (verdict t allowed keys), s') := by
  unfold Site.offers at hoffers
  unfold callFor at hlive'
  unfold find
  dsimp only
  cases hid : (Assertion.keyId t).isEmpty with
  | false =>
    rw [hid] at hoffers hlive'
    cases hgiven : s.keyAt issuer subject (Assertion.keyId t) with
    | error f =>
      rw [hgiven] at hoffers
      cases hoffers
    | ok given =>
      rw [hgiven] at hoffers
      obtain rfl := Option.some.inj (Except.ok.inj hoffers)
      exact outcome_findNamed hlive hgiven hlive'
  | true =>
    rw [hid] at hoffers hlive'
    have hgiven : s.keysAt issuer subject = .ok (some keys) := hoffers
    have hlookUp := gives_lookUp issuer subject (.listingFailed issuer subject)
      (outcome_publicKeys s issuer subject) hgiven
    obtain ⟨s', h⟩ := outcome_firstVerifying t allowed issuer subject hlive' keys
    refine ⟨none, s', ?_⟩
    change (checkContext >>= fun _ => _).outcome s = _
    rw [outcome_bind, gives_checkContext hlive]
    dsimp only
    rw [outcome_bind, hlookUp]
    exact h

end Signer

theorem Grant.clear_fails_of_find {g : Grant} {r : AccessRequest} {d : Findings} {s s' : Site}
    {f : Failure} (hread : d.Read g r)
    (h : (Signer.find d.token g.settings.algorithms d.issuer d.subject).Fails s f s') :
    (g.clear r).Fails s f s' := by
  obtain ⟨raw, hraw, hparse, hnamed⟩ := hread.reached
  have hverified : (g.verifiedClaims raw).Fails s f s' := by
    rw [verifiedClaims_eq]
    refine fails_bind.mpr (.inr ⟨_, s, gives_refusing.mpr ⟨hparse, rfl⟩, ?_⟩)
    refine fails_bind.mpr (.inr ⟨_, s, gives_refusing.mpr ⟨hnamed, rfl⟩, ?_⟩)
    exact fails_bind.mpr (.inl h)
  refine fails_bind.mpr (.inr ⟨_, s, gives_orFail.mpr ⟨hread.screened, rfl⟩, ?_⟩)
  refine fails_bind.mpr (.inr ⟨_, s, gives_orFail.mpr ⟨hraw, rfl⟩, ?_⟩)
  exact fails_bind.mpr (.inl hverified)

end AssertionGrant
