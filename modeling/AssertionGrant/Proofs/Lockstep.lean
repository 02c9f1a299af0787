import AssertionGrant.Proofs.Calls
import AssertionGrant.Proofs.Parallel

/-! The gates in two runs side by side. Whatever a request may ask of the storages is fixed by the
text of its assertion: the keys of the issuer and the subject that it speaks of, and the record of
its identifier. At sites that are paired for these the request fares alike. -/

namespace AssertionGrant
open Act

variable [Json.Nesting] {p : Pairing}

namespace SingleUse

variable {jti : Text}

theorem parallel_isUsed (hj : p.jti jti) : Parallel p (isUsed jti) (isUsed jti) := by
  rw [isUsed_eq]
  refine parallel_checkContext.bind fun _ _ => (Act.parallel_isUsed hj).tryCatch fun f f' hf => ?_
  obtain ⟨r, r', rfl, rfl, -⟩ | ⟨e, e', rfl, rfl⟩ := p.likeness.kinds hf
  · exact parallel_throw hf
  · exact (parallel_note _ _).bind fun _ _ => parallel_throw (p.likeness.detail hf _ _)

theorem parallel_mark (hj : p.jti jti) (expiry : Instant) :
    Parallel p (mark jti expiry) (mark jti expiry) := by
  refine parallel_checkContext.bind fun _ _ => ?_
  refine (Act.parallel_mark hj expiry).tryCatch fun f f' hf => ?_
  obtain ⟨r, r', rfl, rfl, hkind⟩ | ⟨e, e', rfl, rfl⟩ := p.likeness.kinds hf
  · dsimp only
    rw [hkind]
    split
    · exact (parallel_note _ _).bind fun _ _ => parallel_throw hf
    · exact parallel_throw hf
  · exact (parallel_note _ _).bind fun _ _ => parallel_throw (p.likeness.detail hf _ _)

end SingleUse

namespace Signer

variable {t : Compact} {allowed : List Text} {issuer subject : Text}

theorem isServerError_congr {f f' : Failure} (hf : p.likeness.rel f f') :
    f'.isServerError = f.isServerError := by
  obtain ⟨r, r', rfl, rfl, hkind⟩ | ⟨e, e', rfl, rfl⟩ := p.likeness.kinds hf
  · unfold Failure.isServerError
    dsimp only
    rw [hkind]
  · rfl

theorem parallel_lookupFailed {α : Type} (entry : Text → LogEntry) {f f' : Failure}
    (hf : p.likeness.rel f f') : Parallel p (lookupFailed issuer subject entry f : Act α)
      (lookupFailed issuer subject entry f') := by
  unfold lookupFailed
  rw [isServerError_congr hf]
  split
  · exact parallel_throw hf
  · exact (parallel_note _ _).bind fun _ _ => parallel_throw (p.likeness.detail hf _ _)

theorem parallel_findNamed {keyId : Text} (hlookUp : Parallel p
      (tryCatch (publicKey issuer subject keyId)
        (lookupFailed issuer subject (.keyMissing issuer subject keyId)))
      (tryCatch (publicKey issuer subject keyId)
        (lookupFailed issuer subject (.keyMissing issuer subject keyId)))) :
    Parallel p (findNamed t allowed issuer subject keyId)
      (findNamed t allowed issuer subject keyId) := by
  refine parallel_checkContext.bind fun _ _ => hlookUp.bind fun given _ => ?_
  refine parallel_checkContext.bind fun _ _ => ?_
  cases given with
  | none => exact parallel_throw (p.likeness.refl _)
  | some key =>
    dsimp only
    split
    · exact parallel_pure _
    · exact (parallel_note _ _).bind fun _ _ => parallel_throw (p.likeness.refl _)
    · exact parallel_throw (p.likeness.refl _)

theorem parallel_firstVerifying (keys : List (Option Jwk)) :
    Parallel p (firstVerifying t allowed issuer subject keys)
      (firstVerifying t allowed issuer subject keys) := by
  induction keys with
  | nil => exact parallel_throw (p.likeness.refl _)
  | cons given rest ih =>
    refine parallel_checkContext.bind fun _ _ => ?_
    cases given with
    | none => exact parallel_throw (p.likeness.refl _)
    | some key =>
      dsimp only
      split
      · exact (parallel_note _ _).bind fun _ _ => parallel_pure _
      · exact ih
      · exact parallel_throw (p.likeness.refl _)

theorem parallel_find (hn : p.tenant issuer subject) :
    Parallel p (find t allowed issuer subject) (find t allowed issuer subject) := by
  unfold find
  dsimp only
  split
  · exact parallel_findNamed ((parallel_publicKey (parallel_storedKey hn _)).tryCatch
      fun _ _ hf => parallel_lookupFailed _ hf)
  · refine parallel_checkContext.bind fun _ _ => Parallel.bind ?_ fun given _ => ?_
    · exact (parallel_publicKeys hn).tryCatch fun _ _ hf => parallel_lookupFailed _ hf
    cases given with
    | none => exact parallel_throw (p.likeness.refl _)
    | some keys => exact parallel_firstVerifying keys

end Signer

theorem Claims.parallel_validate (settings : Settings) {c : Claims} (now : Instant)
    (hj : c.jwtId ≠ [] → p.jti c.jwtId) :
    Parallel p (validate settings c now) (validate settings c now) := by
  refine (parallel_refusing _).bind fun expiry _ => ?_
  split
  · next hne =>
    have hjti : p.jti c.jwtId := hj (by simpa using hne)
    refine parallel_checkContext.bind fun _ _ => ?_
    refine (SingleUse.parallel_isUsed hjti).bind fun used _ => ?_
    split
    · refine (parallel_note _ _).bind fun _ _ => Parallel.bind ?_ fun _ _ => parallel_pure _
      exact parallel_throw (p.likeness.refl _)
    · exact parallel_pure _
  · exact parallel_pure _

structure Assertion.Within (p : Pairing) (raw : String) : Prop where
  tenant : ∀ t issuer subject, parse raw = .ok t →
    Grant.issuerAndSubject t = .ok (issuer, subject) → p.tenant issuer subject
  jti : ∀ c, claimed raw = .ok c → c.jwtId ≠ [] → p.jti c.jwtId

namespace Grant

variable {g : Grant} {r : AccessRequest} {raw : String} {s t s' : Site} {c : Claims}

theorem named_of_verifiedClaims_gives {keyId : Json} {expiry : Instant}
    (h : (g.verifiedClaims raw).Gives s (c, keyId, expiry) s') :
    Assertion.claimed raw = .ok c ∧
      ∃ t, Assertion.parse raw = .ok t ∧ issuerAndSubject t = .ok (c.issuer, c.subject) := by
  obtain ⟨hclaimed, -⟩ := claimed_of_verifiedClaims h
  refine ⟨hclaimed, ?_⟩
  rw [verifiedClaims_eq] at h
  obtain ⟨t, s₁, h₁, h⟩ := gives_bind.mp h
  obtain ⟨ht, rfl⟩ := gives_refusing.mp h₁
  obtain ⟨⟨issuer, subject⟩, s₂, h₂, -⟩ := gives_bind.mp h
  have hnamed := (gives_refusing.mp h₂).1
  obtain ⟨t', ht', hclaimed⟩ := bind_eq_ok.mp hclaimed
  obtain rfl := Except.ok.inj (ht.symm.trans ht')
  obtain ⟨fields, hread, hc⟩ := bind_eq_ok.mp hclaimed
  obtain ⟨fields', hread', ⟨hissuer, -⟩, ⟨hsubject, -⟩⟩ := issuerAndSubject_eq_ok.mp hnamed
  obtain rfl := Except.ok.inj (hread'.symm.trans (mapError_eq_ok.mp hread))
  obtain ⟨hi, hs⟩ := Claims.issuer_subject_of_ofFields (mapError_eq_ok.mp hc) hissuer hsubject
  exact ⟨t, ht, by rw [hi, hs, hnamed]⟩

/-- Whatever comes of an assertion, what is asked of the storages on its account is answered alike. -/
structure Matched (g : Grant) (p : Pairing) (raw : String) : Prop where
  find : ∀ t issuer subject, Assertion.parse raw = .ok t →
    issuerAndSubject t = .ok (issuer, subject) →
    Parallel p (Signer.find t g.settings.algorithms issuer subject)
      (Signer.find t g.settings.algorithms issuer subject)
  scopes : ∀ {s t s' : Site} {c : Claims} {keyId : Json} {expiry : Instant}, Site.Paired p s t →
    (g.verifiedClaims raw).Gives s (c, keyId, expiry) s' →
    Parallel p (storedKey c.issuer c.subject keyId) (storedKey c.issuer c.subject keyId)
  jti : ∀ c, Assertion.claimed raw = .ok c → c.jwtId ≠ [] → p.jti c.jwtId

theorem matched_of_within (g : Grant) (hw : Assertion.Within p raw) : g.Matched p raw where
  find t _ _ ht hnamed := Signer.parallel_find (hw.tenant t _ _ ht hnamed)
  scopes := by
    intro _ _ _ c keyId _ _ h
    obtain ⟨-, t, ht, hnamed⟩ := named_of_verifiedClaims_gives h
    exact parallel_storedKey (hw.tenant t _ _ ht hnamed) keyId
  jti := hw.jti

theorem Matched.parallel_verifiedClaims (h : g.Matched p raw) :
    Parallel p (g.verifiedClaims raw) (g.verifiedClaims raw) := by
  rw [verifiedClaims_eq]
  refine (parallel_refusing _).bind fun t ht => (parallel_refusing _).bind fun named hnamed => ?_
  obtain ⟨_, _, _, -, ht⟩ := ht
  obtain ⟨_, _, _, -, hnamed⟩ := hnamed
  have ht := (gives_refusing.mp ht).1
  have hnamed := (gives_refusing.mp hnamed).1
  refine (h.find t _ _ ht hnamed).bind fun found hfound => ?_
  obtain ⟨_, _, _, -, hfound⟩ := hfound
  refine (parallel_refusing _).bind fun c hc => parallel_get_bind fun s t hst => ?_
  obtain ⟨_, _, _, -, hc⟩ := hc
  -- What a key verifies is what was read before, so the identifier is that of `h`.
  have hread := Assertion.readClaims_of_verify (Signer.verify_of_find hfound)
  have hclaimed : Assertion.claimed raw = .ok c :=
    bind_eq_ok.mpr ⟨_, ht, bind_eq_ok.mpr ⟨_, hread, (gives_refusing.mp hc).1⟩⟩
  rw [hst.left, hst.right]
  exact (Claims.parallel_validate _ _ (h.jti c hclaimed)).bind fun _ _ => parallel_pure _

theorem parallel_scopesOf {keyId : Json}
    (hstored : Parallel p (storedKey c.issuer c.subject keyId) (storedKey c.issuer c.subject keyId)) :
    Parallel p (scopesOf c keyId) (scopesOf c keyId) := by
  refine parallel_checkContext.bind fun _ _ =>
    (parallel_publicKeyScopes hstored).tryCatch fun f f' hf => ?_
  rw [Signer.isServerError_congr hf]
  split
  · exact parallel_throw hf
  · exact parallel_throw (p.likeness.detail hf _ _)

theorem parallel_authorize (g : Grant) (r : AccessRequest) {keyId : Json}
    (hstored : Parallel p (storedKey c.issuer c.subject keyId) (storedKey c.issuer c.subject keyId)) :
    Parallel p (g.authorize r c keyId) (g.authorize r c keyId) := by
  refine (parallel_scopesOf hstored).bind fun _ _ => (parallel_orFail _).bind fun _ _ => ?_
  split
  · exact parallel_orFail _
  · exact parallel_pure _

theorem parallel_approve (h : ∀ raw, assertionOf r = .ok raw → g.Matched p raw) :
    Parallel p (g.approve r) (g.approve r) := by
  refine (parallel_orFail _).bind fun _ _ => (parallel_orFail _).bind fun raw hraw => ?_
  obtain ⟨_, _, _, -, hraw⟩ := hraw
  have h := h raw (gives_orFail.mp hraw).1
  refine h.parallel_verifiedClaims.bind fun found hfound => ?_
  obtain ⟨c, keyId, expiry⟩ := found
  obtain ⟨_, _, _, hst, hfound⟩ := hfound
  refine (parallel_authorize g r (h.scopes hst hfound)).bind fun _ _ => ?_
  have hend : Parallel p (orFail (sessionOf r) >>= fun session => pure (c, session))
      (orFail (sessionOf r) >>= fun session => pure (c, session)) :=
    (parallel_orFail _).bind fun _ _ => parallel_pure _
  dsimp only
  split
  · next hne =>
    have hclaimed := (claimed_of_verifiedClaims hfound).1
    have hjti : p.jti c.jwtId := h.jti c hclaimed (by simpa using hne)
    exact (SingleUse.parallel_mark hjti expiry).bind fun _ _ => hend
  · exact hend

/-- A request whose assertion is matched fares alike at paired sites: it fails or is accepted in both
runs, and is granted the same. -/
theorem handled_matched (hm : ∀ raw, assertionOf r = .ok raw → g.Matched p raw)
    (h : Site.Paired p s t) :
    Agree p.likeness (g.handled r s).1.result (g.handled r t).1.result ∧
      (g.handled r t).1.request = (g.handled r s).1.request ∧
      Site.Paired p (g.handled r s).2 (g.handled r t).2 := by
  obtain ⟨hagree, hpaired⟩ := parallel_approve hm s t h
  rw [handled_eq_conclude, handled_eq_conclude]
  generalize ((g.approve r).outcome s).1 = x, ((g.approve r).outcome s).2 = s',
    ((g.approve r).outcome t).1 = y, ((g.approve r).outcome t).2 = t' at hagree hpaired
  cases hagree with
  | ok found =>
    obtain ⟨c, session⟩ := found
    obtain ⟨log, e⟩ := conclude_ok g r c session s'
    obtain ⟨log', e'⟩ := conclude_ok g r c session t'
    have hsettled : g.settle r c session t'.now = g.settle r c session s'.now := by
      rw [hpaired.left, hpaired.right]
    rw [e, e', hsettled]
    exact ⟨.refl _, rfl, hpaired.logged _ _⟩
  | error hf =>
    obtain ⟨log, e⟩ := conclude_error g r _ s'
    obtain ⟨log', e'⟩ := conclude_error g r _ t'
    rw [e, e']
    exact ⟨.error hf, rfl, hpaired.logged _ _⟩

theorem handled_parallel (g : Grant) (hw : ∀ raw, assertionOf r = .ok raw → Assertion.Within p raw)
    (h : Site.Paired p s t) :
    Agree p.likeness (g.handled r s).1.result (g.handled r t).1.result ∧
      (g.handled r t).1.request = (g.handled r s).1.request ∧
      Site.Paired p (g.handled r s).2 (g.handled r t).2 :=
  handled_matched (fun raw hraw => matched_of_within g (hw raw hraw)) h

end Grant
end AssertionGrant
