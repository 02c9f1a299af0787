import AssertionGrant.Endpoint
import AssertionGrant.Proofs.Itinerary
import AssertionGrant.Proofs.Minting
import AssertionGrant.Proofs.Registered
import AssertionGrant.Proofs.Requests

/-! What a form brings. A response with status 200 has an access token that says exactly what was
granted: the subject and the audience are those of the assertion, the client is the one that was
loaded, and the scopes are the requested ones, each of them registered for the key that verified
the assertion. But a token has no pairs of halves, so audiences that differ in these come out as
one audience twice. -/

namespace AssertionGrant

namespace AccessRequest

theorem merged_join_requestedOf (form : List (String × String)) :
    (Scope.join (requestedOf form)).merged = Scope.join (requestedOf form) := by
  refine Text.merged_of_toString? (Scope.isSome_toString?_join fun scope hscope => ?_)
  refine Text.isSome_toString?_iff.mpr fun l hl => ?_
  obtain ⟨c, -, rfl⟩ := List.mem_map.mp (Text.mem_of_mem_words (Text.mem_distinct.mp hscope) hl)
  exact ⟨c, rfl⟩

theorem merged_text?_requestedOf (form : List (String × String)) :
    (Scope.text? (requestedOf form)).map Text.merged = Scope.text? (requestedOf form) := by
  unfold Scope.text?
  split
  · rfl
  · exact congrArg some (merged_join_requestedOf form)

end AccessRequest

namespace Grant
open Act

variable [Json.Nesting] {g : Grant} {r : AccessRequest} {s : Site} {form : List (String × String)}
  {client : Option Client}

/-- A request from a form that is accepted has exactly what it asked for and what its assertion
says. -/
theorem findings_of_handled (hs : s.Genuine)
    (hr : r.Ungranted form client (some (.bearer "" [])))
    (hok : (g.handled r s).1.result = .ok ()) :
    ∃ d : Findings, d.Read g r ∧ d.Verified g s ∧ d.Covered g r s ∧
      ((g.handled r s).1.request.session.bind Session.subject?).getD "" = d.claims.subject ∧
      (g.handled r s).1.request.grantedScopes = AccessRequest.requestedOf form ∧
      (g.handled r s).1.request.grantedAudience = Text.distinct d.claims.audience ∧
      (g.handled r s).1.request.client = client := by
  rcases handled_cases g r s with ⟨f, s', -, e, -⟩ | ⟨c, s', log, h, -, hend⟩
  · rw [e] at hok
    cases hok
  rcases hend with ⟨f, -, e⟩ | ⟨session, hsession, e⟩
  · rw [e] at hok
    cases hok
  · rw [e] at hok ⊢
    obtain ⟨d, rfl, hread, hverified, -, hcovered, -⟩ := findings_of_clear_gives hs h
    obtain rfl : .bearer "" [] = session := by
      unfold sessionOf at hsession
      rw [hr.session] at hsession
      exact Except.ok.inj hsession
    refine ⟨d, hread, hverified, hcovered, ?_⟩
    obtain ⟨expiry, -, er⟩ := of_settle_ok hok
    rw [er, granting_eq hr]
    exact ⟨rfl, rfl, rfl, hr.client⟩

end Grant

namespace Act

theorem outcome_lift {α : Type} (x : StateM Site α) (s : Site) :
    (liftM x : Act α).outcome s = (.ok (x.run s).1, (x.run s).2) := rfl

end Act

namespace Endpoint
open Act

variable {e : Endpoint} {id : Text} {r : HttpRequest} {s : Site}

theorem errorResponse_status (e : Endpoint) (f : Failure) : (e.errorResponse f).status ≠ 200 := by
  change (errorFor f).kind.status ≠ 200
  cases (errorFor f).kind <;> decide

def responseTo (e : Endpoint) : Except Failure TokenResponse → HttpResponse
  | .ok response => .uncached 200 response.body
  | .error f => e.errorResponse f

def answering (e : Endpoint) : Except Failure TokenResponse → StateM Site HttpResponse
  | .ok response => pure (.uncached 200 response.body)
  | .error f => do
    match f with
    | .refusal _ => pure ()
    | .fault _ => Grant.noteAll [.endpointFailed]
    pure (e.errorResponse f)

theorem ungranted_of_requestOf {request : AccessRequest} (h : e.requestOf id r = .ok request) :
    ∃ client form, e.client r = .ok client ∧ r.form? = some form ∧
      request.Ungranted form client e.session := by
  obtain ⟨client, hclient, h⟩ := bind_eq_ok.mp h
  obtain ⟨session, hsession, h⟩ := bind_eq_ok.mp h
  have hgiven : session = e.session := by
    unfold newSession at hsession
    split at hsession
    · cases hsession
    · exact (Except.ok.inj hsession).symm
  subst hgiven
  split at h
  · cases h
  · next form hform =>
    exact ⟨client, form, hclient, hform,
      AccessRequest.ungranted_of_ofForm (mapError_eq_ok.mp h)⟩

variable [Json.Nesting]

theorem answer_eq_answering (e : Endpoint) (id : Text) (r : HttpRequest) (s : Site) :
    (e.answer id r).run s =
      (e.answering ((e.exchange id r).outcome s).1).run ((e.exchange id r).outcome s).2 := rfl

theorem answer_fst (e : Endpoint) (id : Text) (r : HttpRequest) (s : Site) :
    ((e.answer id r).run s).1 = e.responseTo ((e.exchange id r).outcome s).1 := by
  rw [answer_eq_answering]
  cases ((e.exchange id r).outcome s).1 with
  | ok response => rfl
  | error f => cases f <;> rfl

theorem view_of_unstarted {f : Fault} (h : Context.start s.uptime e.timeout = .error f) :
    ((e.view id r).run s).1 = .plain 500 := by
  simp only [view, StateT.run_bind, StateT.run_get, pure_bind, h]
  rfl

theorem view_of_started {context : Context} (h : Context.start s.uptime e.timeout = .ok context) :
    ((e.view id r).run s).1 =
      e.responseTo ((e.exchange id r).outcome { s with context := some context }).1 := by
  rw [← answer_fst]
  simp only [view, StateT.run_bind, StateT.run_get, pure_bind, h]
  rfl

theorem exchange_of_view (h : ((e.view id r).run s).1.status = 200) :
    ∃ context response s', (e.exchange id r).Gives { s with context } response s' ∧
      ((e.view id r).run s).1 = .uncached 200 response.body := by
  cases hstart : Context.start s.uptime e.timeout with
  | error f =>
    rw [view_of_unstarted hstart] at h
    cases h
  | ok context =>
    rw [view_of_started hstart] at h ⊢
    rcases (e.exchange id r).gives_or_fails { s with context := some context } with
      ⟨response, s', hx⟩ | ⟨f, s', hx⟩
    · rw [hx]
      exact ⟨some context, response, s', hx, rfl⟩
    · rw [hx] at h
      exact absurd h (e.errorResponse_status f)

theorem outcome_exchange_unread {f : Failure} (h : e.requestOf id r = .error f) :
    (e.exchange id r).outcome s = (.error f, s) := by
  unfold exchange
  rw [outcome_bind, h]
  rfl

theorem outcome_exchange {request : AccessRequest} (h : e.requestOf id r = .ok request) :
    (e.exchange id r).outcome s =
      (orFail (e.grant.handled request s).1.result >>= fun _ =>
        e.grant.respond (e.grant.handled request s).1.request).outcome
          (e.grant.handled request s).2 := by
  unfold exchange
  rw [outcome_bind, h, outcome_orFail]
  dsimp only
  rw [outcome_bind, outcome_lift]
  rfl

theorem exchange_gives_iff {response : TokenResponse} {s' : Site} :
    (e.exchange id r).Gives s response s' ↔
      ∃ request, e.requestOf id r = .ok request ∧ (e.grant.handled request s).1.result = .ok () ∧
        (e.grant.respond (e.grant.handled request s).1.request).Gives
          (e.grant.handled request s).2 response s' := by
  constructor
  · intro h
    cases hrequest : e.requestOf id r with
    | error f =>
      have hunread := outcome_exchange_unread (s := s) hrequest
      cases (Prod.mk.inj (hunread.symm.trans h)).1
    | ok request =>
      obtain ⟨_, s₁, hhandled, hrespond⟩ :=
        gives_bind.mp ((outcome_exchange hrequest).symm.trans h)
      obtain ⟨hok, rfl⟩ := gives_orFail.mp hhandled
      exact ⟨request, rfl, hok, hrespond⟩
  · rintro ⟨request, hrequest, hok, hrespond⟩
    refine (outcome_exchange hrequest).trans ?_
    exact gives_bind.mpr ⟨(), _, gives_orFail.mpr ⟨hok, rfl⟩, hrespond⟩

theorem exchange_gives {response : TokenResponse} {s' : Site}
    (h : (e.exchange id r).Gives s response s') :
    ∃ request, e.requestOf id r = .ok request ∧ (e.grant.handled request s).1.result = .ok () ∧
      ∃ s₁, (e.grant.respond (e.grant.handled request s).1.request).Gives s₁ response s' := by
  obtain ⟨request, hrequest, hok, hrespond⟩ := exchange_gives_iff.mp h
  exact ⟨request, hrequest, hok, _, hrespond⟩

/-- What the token of a response says of the form that it answers: what was granted, and no scope
beside it. Who reads the token finds the pairs of halves joined. -/
structure Minted (form : List (String × String)) (client : Option Client) (claims : Claims)
    (body payload : Fields) : Prop where
  token : ∃ token t, body.get? "access_token" = some (.str (Text.ofString token)) ∧
    Compact.parse token = .ok t ∧ t.unverifiedClaims = .ok payload
  subject : payload.get? "sub" = some (.str claims.subject.merged)
  audience : payload.get? "aud" =
    some (.arr ((Text.distinct claims.audience).map fun a => .str a.merged))
  client : payload.get? "client_id" = client.map fun c => .str c.id.merged
  noScope : AccessRequest.requestedOf form = [] → payload.get? "scope" = none
  scope : AccessRequest.requestedOf form ≠ [] → ∃ text, payload.get? "scope" = some (.str text) ∧
    Splitting.pieces (.char ' ') text = AccessRequest.requestedOf form
  body : body.get? "scope" = payload.get? "scope"

theorem minted_of_tells {form : List (String × String)} {client : Option Client} {claims : Claims}
    {settings : Settings} {now expiry : Instant} {response : TokenResponse} {t : Compact}
    {payload : Fields} (hrules : claims.Keep settings now expiry)
    (hparse : Compact.parse response.accessToken = .ok t)
    (hclaims : t.unverifiedClaims = .ok payload)
    (htells : Issuer.Tells payload claims.subject.merged
      ((Text.distinct claims.audience).map Text.merged) (client.map (·.id.merged))
      (Scope.text? (AccessRequest.requestedOf form)))
    (hscopes : response.scopes = AccessRequest.requestedOf form) (hextra : response.extra = []) :
    Minted form client claims response.body payload := by
  have haudience : ((Text.distinct claims.audience).map Text.merged).isEmpty = false := by
    have hmem := Text.mem_distinct.mpr hrules.audience
    rw [List.isEmpty_map]
    exact List.isEmpty_eq_false_iff.mpr (List.ne_nil_of_mem hmem)
  refine ⟨⟨_, t, TokenResponse.body_accessToken hextra, hparse, hclaims⟩, htells.subject, ?_, ?_,
    fun hnone => ?_, fun hsome => ?_, ?_⟩
  · rw [htells.audience, haudience, List.map_map]
    rfl
  · rw [htells.client, Option.map_map]
    rfl
  · rw [htells.scope, hnone]
    rfl
  · have htext : Scope.text? (AccessRequest.requestedOf form) =
        some (Scope.join (AccessRequest.requestedOf form)) := by
      unfold Scope.text?
      rw [if_neg]
      simpa using hsome
    rw [htext] at htells
    refine ⟨_, htells.scope, ?_⟩
    unfold AccessRequest.requestedOf at hsome ⊢
    rw [← Scope.parse_eq] at hsome ⊢
    exact Scope.pieces_join_parse hsome
  · rw [TokenResponse.body_scope hextra, htells.scope, hscopes]

variable {strategy : Scope.Strategy}

/-- Whatever the form, the client and the stores are: an endpoint with one of the three strategies
that answers with status 200 brings a token that says what was granted, and the scopes in it were
registered for the key that verified the assertion. -/
theorem minted_says_granted (hs : s.Genuine) (hrule : e.grant.scopes = strategy.rule)
    (hsession : e.session = some (.bearer "" [])) (hok : ((e.view id r).run s).1.status = 200) :
    ∃ client form body payload, ∃ d : Grant.Findings,
      e.client r = .ok client ∧ r.form? = some form ∧
      Compact.parse (AccessRequest.firstOf form "assertion") = .ok d.token ∧
      d.Verified e.grant s ∧ d.Licensed s strategy (AccessRequest.requestedOf form) ∧
      ((e.view id r).run s).1 = .uncached 200 body ∧ Minted form client d.claims body payload := by
  obtain ⟨context, response, s', hx, hview⟩ := exchange_of_view hok
  obtain ⟨request, hrequest, hhandled, s₁, hrespond⟩ := exchange_gives hx
  obtain ⟨client, form, hclient, hform, hr⟩ := ungranted_of_requestOf hrequest
  rw [hsession] at hr
  have hcontext : Site.Untouched s { s with context } := .of_eq rfl rfl rfl rfl
  obtain ⟨d, hread, hverified, hcovered, hsubject, hscopes, haudience, hclient'⟩ :=
    Grant.findings_of_handled (hcontext.genuine hs) hr hhandled
  obtain ⟨_, s₂, -, hissue⟩ := gives_bind.mp hrespond
  obtain ⟨hresponse, hextra, t, payload, hparse, hclaims, htells⟩ :=
    Issuer.of_issue_gives hissue
  rw [hsubject, hscopes, haudience, hclient', AccessRequest.merged_text?_requestedOf] at htells
  rw [hscopes] at hresponse
  obtain ⟨raw, hraw, hparsed⟩ := hread.parsed
  have hassertion := hr.assertion raw hraw
  have hlicensed := hcovered.licensed hverified hrule
  rw [hr.scopes] at hlicensed
  refine ⟨client, form, response.body, payload, d, hclient, hform, hassertion ▸ hparsed,
    ?_, ?_, hview, ?_⟩
  · exact ⟨hverified.1, hverified.2, hverified.3, hverified.4, hverified.5⟩
  · exact ⟨hlicensed.1, hlicensed.2⟩
  · exact minted_of_tells hverified.rules hparse hclaims htells hresponse hextra

end Endpoint

namespace Specimen

def scopedSite : Site :=
  { site with keys := .memory [⟨.str "i", .str "s", .str "k", key, [.str "a", .str "b"]⟩] }

def endpoint : Endpoint where
  grant := { grant with issuer := ⟨"as", .secret (List.replicate 32 1), none, "HS256"⟩ }
  client := fun _ => .ok (some { id := "c" })

def post : HttpRequest where
  path := "/token"
  contentType := some "application/x-www-form-urlencoded"
  body := some
    ("grant_type=urn:ietf:params:oauth:grant-type:jwt-bearer&scope=b+a.c+b+a&assertion=" ++ raw)

theorem post_minted : ∃ body payload : Fields,
    ((endpoint.view "" post).run scopedSite).1 = .uncached 200 body ∧
      payload.get? "client_id" = some (.str "c") ∧ body.get? "scope" = payload.get? "scope" ∧
      ∃ text, payload.get? "scope" = some (.str text) ∧
        Splitting.pieces (.char ' ') text = ["b", "a.c", "a"] := by
  have hsite : scopedSite.Genuine := ⟨List.nodup_nil, nofun, nofun, nofun, nofun, nofun⟩
  have hrule : endpoint.grant.scopes = Scope.Strategy.hierarchic.rule := rfl
  have hanswered : ((endpoint.view "" post).run scopedSite).1.status = 200 := by decide +kernel
  obtain ⟨client, form, body, payload, d, hclient, hform, -, -, -, hview, hminted⟩ :=
    Endpoint.minted_says_granted hsite hrule rfl hanswered
  obtain rfl := Except.ok.inj hclient
  have hrequested : AccessRequest.requestedOf form = ["b", "a.c", "a"] := by
    have hread : post.form?.map AccessRequest.requestedOf =
        some (["b", "a.c", "a"].map Text.ofString) := by
      decide +kernel
    rw [hform] at hread
    exact Option.some.inj hread
  have hscope := hminted.scope
  rw [hrequested] at hscope
  exact ⟨body, payload, hview, hminted.client, hminted.body, hscope (List.cons_ne_nil _ _)⟩

end Specimen
end AssertionGrant
