import AssertionGrant.Proofs.Findings

/-! The calls to the storages that a request makes, in the one order in which it can make them. Each
call has a gate, which is what the request has to have established before it; a request that is
stopped at a gate makes none of the calls behind it. -/

namespace AssertionGrant.Grant
open Act

section Calls

variable [Json.Nesting] {g : Grant} {r : AccessRequest} {s s' : Site} {f : Failure}

namespace Findings

def itinerary (d : Findings) : List StorageCall :=
  Signer.callFor d.token d.issuer d.subject :: d.claims.lookUps ++
    [.scopes d.issuer d.subject d.keyId] ++ d.claims.marks d.expiry

def Gate (d : Findings) (g : Grant) (r : AccessRequest) (s : Site) : StorageCall → Prop
  | .key .. | .keys .. => d.Read g r
  | .isUsed _ => d.Read g r ∧ d.Verified g s
  | .scopes .. => d.Read g r ∧ d.Verified g s ∧ d.Fresh s
  | .mark .. => d.Read g r ∧ d.Verified g s ∧ d.Fresh s ∧ d.Covered g r s

/-- Calls in the order of the itinerary, none of them before its gate. -/
structure Disciplined (d : Findings) (g : Grant) (r : AccessRequest) (s : Site)
    (made : List StorageCall) : Prop where
  route : made <+: d.itinerary
  gated : ∀ call ∈ made, d.Gate g r s call

variable {d : Findings}

theorem disciplined_nil (d : Findings) : d.Disciplined g r s [] := ⟨List.nil_prefix, nofun⟩

theorem Read.disciplined (hread : d.Read g r) :
    d.Disciplined g r s [Signer.callFor d.token d.issuer d.subject] := by
  refine ⟨List.prefix_append [_] _, ?_⟩
  rw [List.forall_mem_singleton]
  unfold Signer.callFor
  split <;> exact hread

theorem Verified.disciplined (hverified : d.Verified g s) (hread : d.Read g r) :
    d.Disciplined g r s (Signer.callFor d.token d.issuer d.subject :: d.claims.lookUps) := by
  have hsought := hread.disciplined (s := s)
  constructor
  · unfold itinerary
    rw [List.append_assoc]
    exact List.prefix_append _ _
  · rw [List.forall_mem_cons]
    refine ⟨hsought.gated _ List.mem_cons_self, ?_⟩
    unfold Claims.lookUps
    split
    · nofun
    · rw [List.forall_mem_singleton]
      exact ⟨hread, hverified⟩

theorem Fresh.disciplined (hfresh : d.Fresh s) (hverified : d.Verified g s) (hread : d.Read g r) :
    d.Disciplined g r s (Signer.callFor d.token d.issuer d.subject :: d.claims.lookUps ++
      [.scopes d.issuer d.subject d.keyId]) := by
  have hlookedUp := hverified.disciplined hread
  refine ⟨List.prefix_append _ _, ?_⟩
  rw [List.forall_mem_append, List.forall_mem_singleton]
  exact ⟨hlookedUp.gated, hread, hverified, hfresh⟩

theorem Covered.disciplined (hcovered : d.Covered g r s) (hfresh : d.Fresh s)
    (hverified : d.Verified g s) (hread : d.Read g r) : d.Disciplined g r s d.itinerary := by
  have hscoped := hfresh.disciplined hverified hread
  refine ⟨List.prefix_rfl, ?_⟩
  unfold itinerary
  rw [List.forall_mem_append]
  refine ⟨hscoped.gated, ?_⟩
  unfold Claims.marks
  split
  · nofun
  · rw [List.forall_mem_singleton]
    exact ⟨hread, hverified, hfresh, hcovered⟩

theorem Disciplined.shorter {made all : List StorageCall} (h : d.Disciplined g r s all)
    (hmade : made <+: all) : d.Disciplined g r s made :=
  ⟨hmade.trans h.route, fun call hcall => h.gated call (hmade.subset hcall)⟩

end Findings

section Runs

variable {d : Findings} {c : Claims} {keyId : Json} {expiry : Instant}

theorem of_verifiedBy_fails (hs : s.Genuine) (hread : d.Read g r)
    (h : (g.verifiedBy d.token d.issuer d.subject).Fails s f s') :
    ∃ (d' : Findings) (made : List StorageCall), s'.calls = s.calls ++ made ∧
      d'.Disciplined g r s made := by
  have hfind : (Signer.find d.token g.settings.algorithms d.issuer d.subject).Makes
      [Signer.callFor d.token d.issuer d.subject] := Signer.makes_find
  have hsought := hread.disciplined (s := s)
  rcases fails_bind.mp h with h | ⟨⟨key, payload⟩, s₁, h₁, h⟩
  · obtain ⟨made, hmade, e⟩ := hfind.fails h
    exact ⟨d, made, e, hsought.shorter hmade⟩
  have hcalls := hfind.gives h₁
  rcases fails_bind.mp h with h | ⟨c, s₂, h₂, h⟩
  · exact ⟨d, _, ((silent_refusing _).of_fails h).trans hcalls, hsought⟩
  obtain ⟨hc, rfl⟩ := gives_refusing.mp h₂
  rcases fails_bind.mp h with h | ⟨_, s₃, h₃, h⟩
  · cases h
  obtain ⟨rfl, rfl⟩ := gives_get.mp h₃
  rcases fails_bind.mp h with h | ⟨expiry, s₄, -, h⟩
  · cases hrules : Claims.checkStateless g.settings c s₁.now with
    | error v =>
      have hsilent := Claims.silent_validate_of_violation hrules
      exact ⟨d, _, (hsilent.of_fails h).trans hcalls, hsought⟩
    | ok expiry =>
      obtain ⟨made, hmade, e⟩ := (Claims.makes_validate hrules).fails h
      obtain ⟨fields, hclaims, hissuer, hsubject⟩ := hread.named
      have hverified := verified_of_find hs hclaims hissuer hsubject h₁ hc hrules
      have hread' : (⟨d.token, d.issuer, d.subject, key, c, expiry⟩ : Findings).Read g r :=
        ⟨hread.screened, hread.parsed, hread.named, hread.issuer, hread.subject⟩
      refine ⟨_, Signer.callFor d.token d.issuer d.subject :: made, ?_,
        (hverified.disciplined hread').shorter ?_⟩
      · rw [e, hcalls, List.append_assoc]
        rfl
      · exact List.cons_prefix_cons.mpr ⟨rfl, hmade⟩
  · exact absurd h fails_pure

theorem calls_of_verifiedBy_gives {t : Compact} {issuer subject : Text}
    (h : (g.verifiedBy t issuer subject).Gives s (c, keyId, expiry) s') :
    s'.calls = s.calls ++ Signer.callFor t issuer subject :: c.lookUps := by
  obtain ⟨⟨key, payload⟩, s₁, h₁, h⟩ := gives_bind.mp h
  obtain ⟨c', s₂, h₂, h⟩ := gives_bind.mp h
  obtain ⟨-, rfl⟩ := gives_refusing.mp h₂
  obtain ⟨_, s₃, h₃, h⟩ := gives_bind.mp h
  obtain ⟨rfl, rfl⟩ := gives_get.mp h₃
  obtain ⟨e, s₄, h₄, h⟩ := gives_bind.mp h
  obtain ⟨he, rfl⟩ := gives_pure.mp h
  obtain ⟨rfl, -, rfl⟩ := by simpa only [Prod.mk.injEq] using he
  have hlookedUp := (Claims.makes_validate (Claims.checkStateless_of_validate h₄)).gives h₄
  rw [hlookedUp, Signer.makes_find.gives h₁, List.append_assoc]
  rfl

theorem read_of_named {raw : String} {issuer subject : Text} {t : Compact} (hscreen : g.screen r = .ok ())
    (hraw : assertionOf r = .ok raw) (hparse : Assertion.parse raw = .ok t)
    (hnamed : issuerAndSubject t = .ok (issuer, subject)) :
    ({ token := t, issuer, subject } : Findings).Read g r := by
  obtain ⟨fields, hclaims, ⟨hissuer, hi⟩, hsubject, hsub⟩ := issuerAndSubject_eq_ok.mp hnamed
  obtain ⟨hassertion, -⟩ := assertionOf_eq_ok.mp hraw
  exact ⟨hscreen, ⟨raw, hassertion, mapError_eq_ok.mp hparse⟩,
    ⟨fields, hclaims, hissuer, hsubject⟩, hi, hsub⟩

theorem not_parse_empty (t : Compact) : Compact.parse "" ≠ .ok t := nofun

theorem Findings.Read.reached (h : d.Read g r) : ∃ raw, assertionOf r = .ok raw ∧
    Assertion.parse raw = .ok d.token ∧ issuerAndSubject d.token = .ok (d.issuer, d.subject) := by
  obtain ⟨raw, hraw, hparse⟩ := h.parsed
  obtain ⟨fields, hclaims, hissuer, hsubject⟩ := h.named
  refine ⟨raw, assertionOf_eq_ok.mpr ⟨hraw, ?_⟩, mapError_eq_ok.mpr hparse, ?_⟩
  · rintro rfl
    exact not_parse_empty _ hparse
  · exact issuerAndSubject_eq_ok.mpr
      ⟨fields, hclaims, ⟨hissuer, h.issuer⟩, hsubject, h.subject⟩

theorem verifiedClaims_cases {raw : String} (hscreen : g.screen r = .ok ())
    (hraw : assertionOf r = .ok raw) (s : Site) :
    (∃ d : Findings, d.Read g r ∧
      (g.verifiedClaims raw).outcome s = (g.verifiedBy d.token d.issuer d.subject).outcome s) ∨
    ∃ q, (g.verifiedClaims raw).Fails s (.refusal q) s := by
  rw [verifiedClaims_eq]
  cases hparse : Assertion.parse raw with
  | error refusal => exact .inr ⟨refusal, rfl⟩
  | ok t =>
    cases hnamed : issuerAndSubject t with
    | error refusal =>
      right
      refine ⟨refusal, ?_⟩
      unfold Fails
      rw [outcome_bind, outcome_refusing]
      dsimp only [Except.mapError]
      rw [outcome_bind, hnamed]
      rfl
    | ok named =>
      refine .inl ⟨_, read_of_named hscreen hraw hparse hnamed, ?_⟩
      rw [outcome_bind, outcome_refusing]
      dsimp only [Except.mapError]
      rw [outcome_bind, hnamed]
      rfl

theorem of_verifiedClaims_gives (hs : s.Genuine) {raw : String} (hscreen : g.screen r = .ok ())
    (hraw : assertionOf r = .ok raw) (h : (g.verifiedClaims raw).Gives s (c, keyId, expiry) s') :
    ∃ d : Findings, d.claims = c ∧ d.keyId = keyId ∧ d.expiry = expiry ∧
      d.Read g r ∧ d.Verified g s ∧ d.Fresh s ∧
      s'.calls = s.calls ++ Signer.callFor d.token d.issuer d.subject :: d.claims.lookUps := by
  rcases verifiedClaims_cases hscreen hraw s with ⟨d₀, hread₀, e⟩ | ⟨f, hf⟩
  · unfold Gives at h
    rw [e] at h
    obtain ⟨fields, hclaims, hissuer, hsubject⟩ := hread₀.named
    obtain ⟨d, ht, hi, hsub, hc, hexpiry, hid, hverified, hfresh⟩ :=
      of_verifiedBy_gives hs hclaims hissuer hsubject h
    have hread : d.Read g r := by
      have hnamed : ∃ fields, d.token.unverifiedClaims = .ok fields ∧
          fields.get? "iss" = some (.str d.issuer) ∧ fields.get? "sub" = some (.str d.subject) := by
        rw [ht, hi, hsub]
        exact hread₀.named
      exact ⟨hread₀.screened, ht ▸ hread₀.parsed, hnamed, hi ▸ hread₀.issuer,
        hsub ▸ hread₀.subject⟩
    have hcalls := calls_of_verifiedBy_gives h
    rw [← ht, ← hi, ← hsub, ← hc] at hcalls
    exact ⟨d, hc, hid, hexpiry, hread, hverified, hfresh, hcalls⟩
  · exact absurd hf h.not_fails

theorem of_verifiedClaims_fails (hs : s.Genuine) {raw : String} (hscreen : g.screen r = .ok ())
    (hraw : assertionOf r = .ok raw) (h : (g.verifiedClaims raw).Fails s f s') :
    ∃ (d : Findings) (made : List StorageCall), s'.calls = s.calls ++ made ∧
      d.Disciplined g r s made := by
  rcases verifiedClaims_cases hscreen hraw s with ⟨d₀, hread₀, e⟩ | ⟨f', hf⟩
  · unfold Fails at h
    rw [e] at h
    exact of_verifiedBy_fails hs hread₀ h
  · obtain ⟨-, rfl⟩ := Prod.mk.inj (hf.symm.trans h)
    exact ⟨{}, [], (List.append_nil _).symm, Findings.disciplined_nil _⟩

theorem findings_of_examine_gives (hs : s.Genuine) (h : (g.examine r).Gives s (c, expiry) s') :
    ∃ d : Findings, d.claims = c ∧ d.expiry = expiry ∧
      d.Read g r ∧ d.Verified g s ∧ d.Fresh s ∧ d.Covered g r s ∧
      s'.calls = s.calls ++ (Signer.callFor d.token d.issuer d.subject :: d.claims.lookUps ++
        [.scopes d.issuer d.subject d.keyId]) := by
  obtain ⟨_, s₁, h₁, h⟩ := gives_bind.mp h
  obtain ⟨hscreen, rfl⟩ := gives_orFail.mp h₁
  obtain ⟨raw, s₂, h₂, h⟩ := gives_bind.mp h
  obtain ⟨hraw, rfl⟩ := gives_orFail.mp h₂
  obtain ⟨⟨c', keyId, expiry'⟩, s₃, h₃, h⟩ := gives_bind.mp h
  have hq := (quiet_verifiedClaims g raw).of_gives h₃
  obtain ⟨d, rfl, rfl, rfl, hread, hverified, hfresh, hcalls⟩ :=
    of_verifiedClaims_gives hs hscreen hraw h₃
  obtain ⟨_, s₄, h₄, h⟩ := gives_bind.mp h
  obtain ⟨e, rfl⟩ := gives_pure.mp h
  obtain ⟨rfl, rfl⟩ := Prod.mk.inj e
  have hcovered := of_authorize_gives (hq.genuine hs) hverified.issuer hverified.subject h₄
  refine ⟨d, rfl, rfl, hread, hverified, hfresh, hcovered.of_untouched hs hq, ?_⟩
  rw [(makes_authorize g r d.claims d.keyId).gives h₄, hcalls, List.append_assoc,
    hverified.issuer, hverified.subject]

theorem of_examine_fails (hs : s.Genuine) (h : (g.examine r).Fails s f s') :
    ∃ (d : Findings) (made : List StorageCall), s'.calls = s.calls ++ made ∧
      d.Disciplined g r s made := by
  have hnone : ∃ (d : Findings) (made : List StorageCall), s.calls = s.calls ++ made ∧
      d.Disciplined g r s made := ⟨{}, [], (List.append_nil _).symm, Findings.disciplined_nil _⟩
  rcases fails_bind.mp h with h | ⟨_, s₁, h₁, h⟩
  · rw [(silent_orFail _).of_fails h]
    exact hnone
  obtain ⟨hscreen, rfl⟩ := gives_orFail.mp h₁
  rcases fails_bind.mp h with h | ⟨raw, s₂, h₂, h⟩
  · rw [(silent_orFail _).of_fails h]
    exact hnone
  obtain ⟨hraw, rfl⟩ := gives_orFail.mp h₂
  rcases fails_bind.mp h with h | ⟨⟨c', keyId, expiry⟩, s₃, h₃, h⟩
  · exact of_verifiedClaims_fails hs hscreen hraw h
  obtain ⟨d, rfl, rfl, rfl, hread, hverified, hfresh, hcalls⟩ :=
    of_verifiedClaims_gives hs hscreen hraw h₃
  rcases fails_bind.mp h with h | ⟨_, s₄, h₄, h⟩
  · have hauthorize := makes_authorize g r d.claims d.keyId
    rw [hverified.issuer, hverified.subject] at hauthorize
    obtain ⟨made, hmade, e⟩ := hauthorize.fails h
    refine ⟨d, Signer.callFor d.token d.issuer d.subject :: d.claims.lookUps ++ made, ?_, ?_⟩
    · rw [e, hcalls, List.append_assoc]
    · have hscoped := hfresh.disciplined hverified hread
      exact hscoped.shorter ((List.prefix_append_right_inj _).mpr hmade)
  · exact absurd h fails_pure

theorem findings_of_clear_gives (hs : s.Genuine) (h : (g.clear r).Gives s c s') :
    ∃ d : Findings, d.claims = c ∧ d.Read g r ∧ d.Verified g s ∧ d.Fresh s ∧ d.Covered g r s ∧
      s'.calls = s.calls ++ d.itinerary := by
  rw [clear_eq] at h
  obtain ⟨⟨c', expiry⟩, s₁, h₁, h⟩ := gives_bind.mp h
  obtain ⟨d, rfl, rfl, hread, hverified, hfresh, hcovered, hcalls⟩ :=
    findings_of_examine_gives hs h₁
  obtain ⟨_, s₂, h₂, h⟩ := gives_bind.mp h
  obtain ⟨rfl, rfl⟩ := gives_pure.mp h
  refine ⟨d, rfl, hread, hverified, hfresh, hcovered, ?_⟩
  rw [makes_mark.gives h₂, hcalls, List.append_assoc]
  rfl

theorem of_clear_fails (hs : s.Genuine) (h : (g.clear r).Fails s f s') :
    ∃ (d : Findings) (made : List StorageCall), s'.calls = s.calls ++ made ∧
      d.Disciplined g r s made := by
  rw [clear_eq] at h
  rcases fails_bind.mp h with h | ⟨⟨c, expiry⟩, s₁, h₁, h⟩
  · exact of_examine_fails hs h
  obtain ⟨d, rfl, rfl, hread, hverified, hfresh, hcovered, hcalls⟩ :=
    findings_of_examine_gives hs h₁
  rcases fails_bind.mp h with h | ⟨_, s₂, h₂, h⟩
  · obtain ⟨made, hmade, e⟩ := makes_mark.fails h
    refine ⟨d, Signer.callFor d.token d.issuer d.subject :: d.claims.lookUps ++
      [.scopes d.issuer d.subject d.keyId] ++ made, ?_, ?_⟩
    · rw [e, hcalls, List.append_assoc]
    · have hall := hcovered.disciplined hfresh hverified hread
      exact hall.shorter ((List.prefix_append_right_inj _).mpr hmade)
  · exact absurd h fails_pure

/-- Whatever becomes of a request, its calls follow the itinerary up to some call, and each of them
was due. One that is accepted makes them all, and its session has the subject of the calls. -/
theorem calls_along_itinerary (hs : s.Genuine) (g : Grant) (r : AccessRequest) :
    ∃ (d : Findings) (made : List StorageCall),
      (g.handled r s).2.calls = s.calls ++ made ∧ d.Disciplined g r s made ∧
      ((g.handled r s).1.result = .ok () → made = d.itinerary ∧
        ∃ session, (g.handled r s).1.request.session = some session ∧
          session.subject = d.subject) := by
  have hcalls := calls_handled g r s
  rcases handled_cases g r s with ⟨f, s', h, e, -⟩ | ⟨c, s', log, h, -, hend⟩
  · rw [h] at hcalls
    obtain ⟨d, made, hmade, hd⟩ := of_clear_fails hs h
    refine ⟨d, made, hcalls.trans hmade, hd, fun hok => ?_⟩
    rw [e] at hok
    cases hok
  · rw [h] at hcalls
    obtain ⟨d, rfl, hread, hverified, hfresh, hcovered, hmade⟩ := findings_of_clear_gives hs h
    refine ⟨d, d.itinerary, hcalls.trans hmade,
      hcovered.disciplined hfresh hverified hread, fun hok => ⟨rfl, ?_⟩⟩
    rcases hend with ⟨f, -, e⟩ | ⟨session, hsession, e⟩
    · rw [e] at hok
      cases hok
    · rw [e] at hok ⊢
      obtain ⟨expiry, -, er⟩ := of_settle_ok hok
      rw [er, ← hverified.subject]
      exact ⟨_, rfl, rfl⟩

end Runs

end Calls

end AssertionGrant.Grant

namespace AssertionGrant.Specimen
open Grant

theorem genuine_site : site.Genuine := ⟨List.nodup_nil, nofun, nofun, nofun, nofun, nofun⟩

theorem request_along_itinerary : site.Genuine ∧ ∃ d : Findings,
    (grant.handled request site).2.calls = d.itinerary ∧
      d.Disciplined grant request site d.itinerary := by
  refine ⟨genuine_site, ?_⟩
  obtain ⟨d, made, hcalls, hd, haccepted⟩ := calls_along_itinerary genuine_site grant request
  obtain ⟨rfl, -⟩ := haccepted request_accepted
  exact ⟨d, hcalls, hd⟩

end AssertionGrant.Specimen
