import AssertionGrant.Proofs.Faults
import AssertionGrant.Proofs.Minting

/-! How a response is filled. Nothing is written on a response before its token is signed, so a
response is filled as a whole or stays as it was. Without a token the issuer leaves with a server
error, unless its algorithm is unknown, its key cannot sign, or its key is a text of a kind that no
algorithm reads. -/

namespace AssertionGrant

/-- A key without its private half. Of a key over a curve that is known by name only, neither half is
there. -/
def KeyMaterial.CannotSign : KeyMaterial → Prop
  | .rsaPublic _ | .ecPublic .. | .ecNamed _ | .ed25519Public _ | .ed448Public _ => True
  | _ => False

namespace Algorithm

variable {alg : Algorithm} {key k : KeyMaterial} {e : Fault}

def Takes : Algorithm → KeyMaterial → Prop
  | .unsecured, key => key = .absent
  | .hmac _, key => ∃ bytes, key = .secret bytes
  | .rsa _, key | .rsaSalted _, key => isRsa key = true
  | .ecdsa _ _, key => isEc key = true
  | .edwards, key => isEdwards key = true

theorem fits_of_keyFor {reader : Bytes → Except KeyFault KeyMaterial} {fits : KeyMaterial → Bool}
    {otherwise : KeyFault} (h : keyFor key reader fits otherwise = .ok k) : fits k = true := by
  unfold keyFor at h
  split at h
  · split at h
    · next hfits => rwa [← Except.ok.inj h]
    · cases h
  · obtain ⟨found, -, h⟩ := bind_eq_ok.mp h
    split at h
    · next hfits => rwa [← Except.ok.inj h]
    · cases h

variable [Json.Nesting]

theorem takes_of_prepare (h : alg.prepare key = .ok k) : alg.Takes k := by
  unfold prepare at h
  cases alg with
  | unsecured =>
    dsimp only at h
    split at h
    · exact (Except.ok.inj h).symm
    · cases h
  | hmac =>
    dsimp only at h
    cases hbytes : secretOf key with
    | error f =>
      rw [hbytes] at h
      cases h
    | ok bytes =>
      rw [hbytes] at h
      exact ⟨bytes, (Except.ok.inj h).symm⟩
  | rsa | rsaSalted | edwards => exact fits_of_keyFor h
  | ecdsa _ curve =>
    obtain ⟨found, hfound, h⟩ := bind_eq_ok.mp h
    rcases onCurve_cases curve found with hon | ⟨f, hoff, -⟩
    · obtain rfl := Except.ok.inj (hon.symm.trans h)
      exact fits_of_keyFor hfound
    · cases hoff.symm.trans h

theorem sign_of_prepare (message : Bytes) (h : alg.prepare key = .ok k) :
    k.CannotSign ∧ alg.sign key message = .error .wrongHalf ∨
      ¬ k.CannotSign ∧ ∀ f, alg.sign key message = .error f → f.toFault? = none := by
  have htakes := takes_of_prepare h
  unfold sign
  rw [h]
  cases alg with
  | unsecured =>
    obtain rfl := htakes
    exact .inr ⟨not_false, nofun⟩
  | hmac =>
    obtain ⟨bytes, rfl⟩ := htakes
    exact .inr ⟨not_false, nofun⟩
  | rsa | rsaSalted =>
    cases k with
    | rsaPublic => exact .inl ⟨trivial, rfl⟩
    | rsaPrivate pair =>
      refine .inr ⟨not_false, fun f h => ?_⟩
      dsimp only [bind, Except.bind] at h
      split at h
      · cases h
      · rw [← Except.error.inj h]
        rfl
    | _ => cases htakes
  | ecdsa =>
    cases k with
    | ecPublic | ecNamed => exact .inl ⟨trivial, rfl⟩
    | ecPrivate => exact .inr ⟨not_false, nofun⟩
    | _ => cases htakes
  | edwards =>
    cases k with
    | ed25519Public | ed448Public => exact .inl ⟨trivial, rfl⟩
    | ed25519Private | ed448Private => exact .inr ⟨not_false, nofun⟩
    | _ => cases htakes

def Baffles (alg : Algorithm) (key : KeyMaterial) (e : Fault) : Prop :=
  (∃ f, alg.prepare key = .error f ∧ f.toFault? = some e) ∨
    ∃ k, alg.prepare key = .ok k ∧ k.CannotSign ∧ e = ⟨.wrongObject, KeyFault.wrongHalf.message⟩

theorem baffles_iff (message : Bytes) : alg.Baffles key e ↔
    ∃ f, alg.sign key message = .error f ∧ f.toFault? = some e := by
  unfold Baffles
  cases hprep : alg.prepare key with
  | error f =>
    have hsign : alg.sign key message = .error f := by
      unfold sign
      rw [hprep]
      rfl
    simp [hsign]
  | ok k =>
    rcases sign_of_prepare message hprep with ⟨hcannot, hsign⟩ | ⟨hcan, hsign⟩
    · simp [hsign, hcannot, KeyFault.toFault?, eq_comm]
    · constructor
      · rintro (⟨f, hf, -⟩ | ⟨k', hk, hcannot, -⟩)
        · cases hf
        · rw [← Except.ok.inj hk] at hcannot
          exact absurd hcannot hcan
      · rintro ⟨f, hf, hfault⟩
        rw [hsign f hf] at hfault
        cases hfault

end Algorithm

/-- Signing fails as the algorithm does on what is signed. -/
theorem Compact.exists_signed [Json.Nesting] (header payload : Json) : ∃ message, ∀ alg key f,
    Compact.sign header payload alg key = .error f ↔ alg.sign key message = .error f := by
  let head := Base64Url.encode (Utf.encode (header.text Json.canonical))
  let body := Base64Url.encode (Utf.encode (payload.text Json.compact))
  refine ⟨Utf.encode (head ++ "." ++ body), fun alg key f => ?_⟩
  unfold Compact.sign
  dsimp only
  rw [bind_eq_error]
  refine ⟨?_, .inl⟩
  rintro (h | ⟨signature, -, h⟩)
  · exact h
  · cases h

namespace Fill

variable {α β : Type}

def outcome (x : Fill α) (d : Draft) : Except Failure α × Draft := x.run d

theorem outcome_bind (x : Fill α) (k : α → Fill β) (d : Draft) :
    (x >>= k).outcome d = match x.outcome d with
      | (.ok a, d') => (k a).outcome d'
      | (.error f, d') => (.error f, d') := by
  change ExceptT.bindCont k (x.outcome d).1 (x.outcome d).2 = _
  rcases x.outcome d with ⟨_ | _, _⟩ <;> rfl

theorem outcome_onSite (x : Act α) (s : Site) (response : TokenResponse) :
    (onSite x).outcome ⟨s, response⟩ = ((x.outcome s).1, ⟨(x.outcome s).2, response⟩) := rfl

theorem onSite_bind (x : Act α) (k : α → Act β) :
    onSite (x >>= k) = onSite x >>= fun a => onSite (k a) := by
  funext ⟨s, response⟩
  change (onSite (x >>= k)).outcome ⟨s, response⟩ = outcome _ ⟨s, response⟩
  rw [outcome_bind, outcome_onSite, outcome_onSite, Act.outcome_bind]
  rcases x.outcome s with ⟨_ | _, _⟩ <;> rfl

end Fill

namespace Issuer
open Act

variable {i : Issuer} {r : AccessRequest} {lifespan : Span} {s s' : Site}

theorem exists_expiryFor {now : Instant} (h : (now.add? lifespan).isSome = true) :
    ∃ expiresAt, expiryFor r now lifespan = .ok expiresAt := by
  obtain ⟨t, ht⟩ := Option.isSome_iff_exists.mp h
  unfold expiryFor
  split
  · exact ⟨_, rfl⟩
  · rw [ht]
    exact ⟨t, rfl⟩

variable [Json.Nesting]

theorem fill_eq (i : Issuer) (lifespan : Span) (r : AccessRequest) :
    i.fill lifespan r = Fill.onSite (i.issue lifespan r) >>= fun issued =>
      Fill.write fun response => { issued with extra := response.extra } := by
  unfold fill issue
  simp only [Fill.onSite_bind, bind_assoc]
  rfl

theorem outcome_fill (i : Issuer) (lifespan : Span) (r : AccessRequest) (s : Site)
    (response : TokenResponse) : (i.fill lifespan r).outcome ⟨s, response⟩ =
      match (i.issue lifespan r).outcome s with
      | (.ok issued, s') => (.ok (), ⟨s', { issued with extra := response.extra }⟩)
      | (.error f, s') => (.error f, ⟨s', response⟩) := by
  rw [fill_eq, Fill.outcome_bind, Fill.outcome_onSite]
  rcases (i.issue lifespan r).outcome s with ⟨_ | _, _⟩ <;> rfl

def Baffles (i : Issuer) (e : Fault) : Prop :=
  match Algorithm.ofName? i.algorithm with
  | none => e = ⟨.notImplemented, "Algorithm not supported"⟩
  | some alg => alg.Baffles i.key e

theorem Baffles.unique {e e' : Fault} (h : i.Baffles e) (h' : i.Baffles e') : e = e' := by
  unfold Baffles at h h'
  cases hname : Algorithm.ofName? i.algorithm with
  | none =>
    rw [hname] at h h'
    exact h.trans h'.symm
  | some alg =>
    rw [hname] at h h'
    obtain ⟨f, hf, he⟩ := (Algorithm.baffles_iff []).mp h
    obtain ⟨f', hf', he'⟩ := (Algorithm.baffles_iff []).mp h'
    obtain rfl := Except.error.inj (hf.symm.trans hf')
    exact Option.some.inj (he.symm.trans he')

theorem sign_cases (i : Issuer) (payload : Json) (s : Site) :
    (∃ e, i.Baffles e ∧ (i.sign payload).Fails s (.fault e) s) ∨
    (∀ e, ¬ i.Baffles e) ∧ ((∃ token, (i.sign payload).Gives s token s) ∨
      ∃ q s', q.kind = .serverError ∧ (i.sign payload).Fails s (.refusal q) s') := by
  unfold sign Baffles
  cases Algorithm.ofName? i.algorithm with
  | none => exact .inl ⟨_, rfl, rfl⟩
  | some alg =>
    obtain ⟨message, hsign⟩ := Compact.exists_signed i.header payload
    simp only [Algorithm.baffles_iff message, ← hsign]
    cases Compact.sign i.header payload alg i.key with
    | ok token =>
      refine .inr ⟨?_, .inl ⟨token, rfl⟩⟩
      rintro e ⟨f, hf, -⟩
      cases hf
    | error f =>
      dsimp only
      cases hfault : f.toFault? with
      | none =>
        refine .inr ⟨?_, .inr ⟨_, _, ?_, rfl⟩⟩
        · rintro e ⟨f', hf', he⟩
          rw [← Except.error.inj hf', hfault] at he
          cases he
        · rfl
      | some e => exact .inl ⟨e, ⟨f, rfl, hfault⟩, rfl⟩

theorem sign_gives_of_secret {h : Crypto.Hash} {bytes : Bytes}
    (hname : Algorithm.ofName? i.algorithm = some (.hmac h))
    (hsecret : Algorithm.secretOf i.key = .ok bytes) (payload : Json) (s : Site) :
    ∃ token, (i.sign payload).Gives s token s := by
  have hprepare : (Algorithm.hmac h).prepare i.key = .ok (.secret bytes) := by
    change (Algorithm.secretOf i.key).map KeyMaterial.secret = _
    rw [hsecret]
    rfl
  have hsigned : ∃ token, Compact.sign i.header payload (.hmac h) i.key = .ok token := by
    unfold Compact.sign Algorithm.sign
    rw [hprepare]
    exact ⟨_, rfl⟩
  obtain ⟨token, htoken⟩ := hsigned
  unfold sign
  rw [hname]
  dsimp only
  rw [htoken]
  exact ⟨token, rfl⟩

theorem outcome_issue {expiresAt : Instant} (hexpiry : expiryFor r s.now lifespan = .ok expiresAt) :
    ¬ s.Live ∧ (∃ q, q.kind = .serverError ∧ (i.issue lifespan r).Fails s (.refusal q) s) ∨
    s.Live ∧ ∃ payload s₁, (i.issue lifespan r).outcome s =
      match (i.sign payload).outcome s₁ with
      | (.ok token, s') =>
        (.ok ⟨token, "bearer", some (.int (secondsLeft s.now expiresAt)), r.grantedScopes, []⟩, s')
      | (.error f, s') => (.error f, s') := by
  rcases checkContext_cases s with ⟨hlive, e⟩ | ⟨hdone, q, hq, e⟩
  · right
    obtain ⟨jti, hjti⟩ : ∃ jti, drawText.Gives s jti { s with draws := s.draws + 1 } :=
      ⟨_, rfl⟩
    refine ⟨hlive, i.payload r s.now expiresAt jti, { s with draws := s.draws + 1 }, ?_⟩
    unfold issue
    rw [outcome_bind, e]
    dsimp only
    rw [outcome_bind, outcome_get]
    dsimp only
    rw [outcome_bind, outcome_faulting, hexpiry]
    dsimp only [Except.mapError]
    rw [outcome_bind, hjti]
    dsimp only
    rw [outcome_bind]
    rcases (i.sign _).outcome _ with ⟨_ | _, _⟩ <;> rfl
  · left
    exact ⟨hdone, q, hq, fails_bind.mpr (.inl e)⟩

theorem issue_cases (hcalendar : (s.now.add? lifespan).isSome = true) :
    (∃ e s', (s.Live ∧ i.Baffles e) ∧ (i.issue lifespan r).Fails s (.fault e) s') ∨
    (∀ e, ¬ (s.Live ∧ i.Baffles e)) ∧ ((∃ token seconds s', (i.issue lifespan r).Gives s
        ⟨token, "bearer", some (.int seconds), r.grantedScopes, []⟩ s') ∨
      ∃ q s', q.kind = .serverError ∧ (i.issue lifespan r).Fails s (.refusal q) s') := by
  obtain ⟨expiresAt, hexpiry⟩ := exists_expiryFor (r := r) hcalendar
  rcases outcome_issue (i := i) hexpiry with
    ⟨hdone, q, hq, hfails⟩ | ⟨hlive, payload, s₁, hissue⟩
  · exact .inr ⟨fun e h => hdone h.1, .inr ⟨q, s, hq, hfails⟩⟩
  · unfold Gives Fails
    rcases i.sign_cases payload s₁ with
      ⟨e, hbaffles, hsign⟩ | ⟨hcalm, ⟨token, hsign⟩ | ⟨q, s₂, hq, hsign⟩⟩ <;> rw [hissue, hsign]
    · exact .inl ⟨e, s₁, ⟨hlive, hbaffles⟩, rfl⟩
    · exact .inr ⟨fun e h => hcalm e h.2, .inl ⟨token, _, s₁, rfl⟩⟩
    · exact .inr ⟨fun e h => hcalm e h.2, .inr ⟨q, s₂, hq, rfl⟩⟩

theorem baffles_iff_of_bytesOf (hbytes : Algorithm.bytesOf? i.key = none) (e : Fault) :
    i.Baffles e ↔
      Algorithm.ofName? i.algorithm = none ∧ e = ⟨.notImplemented, "Algorithm not supported"⟩ ∨
      ∃ alg, Algorithm.ofName? i.algorithm = some alg ∧ alg.prepare i.key = .ok i.key ∧
        i.key.CannotSign ∧ e = ⟨.wrongObject, KeyFault.wrongHalf.message⟩ := by
  unfold Baffles
  cases Algorithm.ofName? i.algorithm with
  | none => simp
  | some alg =>
    unfold Algorithm.Baffles
    rcases Algorithm.prepare_of_bytesOf hbytes alg with hprep | ⟨f, hprep, hnone⟩
    · simp [hprep]
    · simp [hprep, hnone]

/-- Within the calendar, a response is filled with a token that can be read, or it stays as it was
and the failure is a server error or a fault. It is a fault exactly if the request is live and the
issuer has no algorithm or no key that signs. -/
theorem fill_outcomes (i : Issuer) (r : AccessRequest) (response : TokenResponse)
    (hcalendar : (s.now.add? lifespan).isSome = true) :
    ∃ result site filled,
      (i.fill lifespan r).outcome ⟨s, response⟩ = (result, ⟨site, filled⟩) ∧
      (result = .ok () → ∃ token seconds t, Compact.parse token = .ok t ∧
        filled = { response with accessToken := token, tokenType := "bearer",
                                 expiresIn := some (.int seconds), scopes := r.grantedScopes }) ∧
      (result ≠ .ok () → filled = response) ∧
      (∀ q, result = .error (.refusal q) → q.kind = .serverError) ∧
      (∀ e, result = .error (.fault e) ↔ s.Live ∧ i.Baffles e) ∧
      (Algorithm.bytesOf? i.key = none → ∀ e, i.Baffles e ↔
        Algorithm.ofName? i.algorithm = none ∧ e = ⟨.notImplemented, "Algorithm not supported"⟩ ∨
        ∃ alg, Algorithm.ofName? i.algorithm = some alg ∧ alg.prepare i.key = .ok i.key ∧
          i.key.CannotSign ∧ e = ⟨.wrongObject, KeyFault.wrongHalf.message⟩) := by
  rw [outcome_fill]
  rcases issue_cases (i := i) (r := r) hcalendar with
    ⟨e, s', ⟨hlive, hbaffles⟩, h⟩ | ⟨hcalm, ⟨token, seconds, s', h⟩ | ⟨q, s', hq, h⟩⟩
  · rw [h]
    refine ⟨_, _, _, rfl, nofun, fun _ => rfl, nofun, fun e' => ?_, baffles_iff_of_bytesOf⟩
    constructor
    · intro h
      cases h
      exact ⟨hlive, hbaffles⟩
    · rintro ⟨-, h⟩
      rw [hbaffles.unique h]
  · obtain ⟨-, -, expiresAt, jti, t, payload, -, -, hparse, -⟩ := exists_issued h
    rw [h]
    refine ⟨_, _, _, rfl, fun _ => ⟨token, seconds, t, hparse, rfl⟩, absurd rfl, nofun,
      fun e => ⟨nofun, fun h => absurd h (hcalm e)⟩, baffles_iff_of_bytesOf⟩
  · rw [h]
    refine ⟨_, _, _, rfl, nofun, fun _ => rfl, ?_,
      fun e => ⟨nofun, fun h => absurd h (hcalm e)⟩, baffles_iff_of_bytesOf⟩
    intro q' h
    cases h
    exact hq

end Issuer

namespace Specimen

def verifier : Issuer := ⟨"as", key.material, none, "RS256"⟩

theorem verifier_fills_nothing :
    (site.now.add? ⟨3600000000⟩).isSome = true ∧
      ∃ s', (verifier.fill ⟨3600000000⟩ request).outcome ⟨site, { tokenType := "old" }⟩ =
        (.error (.fault ⟨.wrongObject, KeyFault.wrongHalf.message⟩),
          ⟨s', { tokenType := "old" }⟩) := by
  have hcalendar : (site.now.add? ⟨3600000000⟩).isSome = true := by decide
  obtain ⟨result, s', filled, houtcome, -, hkept, -, hfault, hbaffles⟩ :=
    verifier.fill_outcomes request { tokenType := "old" } hcalendar
  have hlive : site.Live := nofun
  have hname : Algorithm.ofName? verifier.algorithm = some (.rsa .sha256) := by decide
  have hbaffled : verifier.Baffles ⟨.wrongObject, KeyFault.wrongHalf.message⟩ :=
    (hbaffles rfl _).mpr (.inr ⟨_, hname, rfl, trivial, rfl⟩)
  have hresult := (hfault _).mpr ⟨hlive, hbaffled⟩
  have hnot : result ≠ .ok () := by
    rw [hresult]
    nofun
  rw [hkept hnot, hresult] at houtcome
  exact ⟨hcalendar, s', houtcome⟩

end Specimen
end AssertionGrant
