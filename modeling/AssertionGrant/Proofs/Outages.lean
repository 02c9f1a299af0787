import AssertionGrant.Proofs.Exchange
import AssertionGrant.Proofs.Lockstep
import AssertionGrant.Proofs.Offers

/-! What the answers to HTTP requests tell of a storage that fails. Two runs that differ in nothing
but the faults which storages raise get the same response. The response to a fault is fixed by the
call that raised it: for a look-up of keys it is the one that also answers a token which no
registered key verifies, and for the other calls a server error without any detail. -/

namespace AssertionGrant

inductive Shown : Failure → Failure → Prop
  | refusal (kind : RefusalKind) (hint debug debug' : Option Text) :
    Shown (.refusal ⟨kind, hint, debug⟩) (.refusal ⟨kind, hint, debug'⟩)
  | fault (e e' : Fault) : Shown (.fault e) (.fault e')

def Likeness.shown : Likeness where
  rel := Shown
  refl f := by
    cases f with
    | refusal r => exact .refusal r.kind r.hint r.debug r.debug
    | fault e => exact .fault e e
  kinds h := by
    cases h with
    | refusal kind hint debug debug' => exact .inl ⟨_, _, rfl, rfl, rfl⟩
    | fault e e' => exact .inr ⟨e, e', rfl, rfl⟩
  detail _ kind hint := .refusal kind hint _ _

def StorageCall.outage : StorageCall → Refusal
  | .key issuer subject _ | .keys issuer subject => Signer.notFound issuer subject none
  | .scopes .. | .isUsed _ | .mark .. => .bare .serverError

theorem StorageCall.raises_fault (call : StorageCall) (f : Fault) :
    call.raises (.fault f) = .refusal { call.outage with debug := some f.text } := by
  cases call <;> rfl

theorem Signer.outage_callFor (t : Compact) (issuer subject : Text) :
    (callFor t issuer subject).outage = notFound issuer subject none := by
  unfold callFor
  split <;> rfl

namespace Endpoint

variable {e : Endpoint}

theorem responseTo_of_agree (hexpose : e.exposeDebug = false)
    {x y : Except Failure TokenResponse} (h : Agree .shown x y) :
    e.responseTo y = e.responseTo x := by
  cases h with
  | ok response => rfl
  | error h =>
    cases h with
    | refusal kind hint debug debug' =>
      unfold responseTo errorResponse errorFor
      rw [hexpose]
      dsimp only
      split <;> rfl
    | fault => rfl

theorem errorResponse_outage (hexpose : e.exposeDebug = false) (call : StorageCall)
    (debug : Option Text) : e.errorResponse (.refusal { call.outage with debug }) =
      .uncached call.outage.kind.status (call.outage.body false) := by
  unfold errorResponse errorFor
  rw [hexpose]
  cases call <;> rfl

end Endpoint

/-- A site at which storages fail in the same calls, but perhaps with other faults. -/
structure Site.DiffersInFaults (s t : Site) : Prop where
  now : t.now = s.now
  uptime : t.uptime = s.uptime
  random : t.randomText = s.randomText
  draws : t.draws = s.draws
  keys : t.keys = s.keys
  replays : t.replays = s.replays
  cache : t.cache = { s.cache with outage := t.cache.outage }
  outage : t.cache.outage.isSome = s.cache.outage.isSome
  disturbances : Disturbances.Agree .shown s.disturbances t.disturbances

variable [Json.Nesting]

namespace KeyStore

variable {store : KeyStore} {cache : Cache} {outage : Option Text} {issuer subject : Json}

theorem find_during_outage (h : outage.isSome = cache.outage.isSome) (keyId : Json) :
    Agree .shown ((store.find cache issuer subject keyId).mapError .fault)
      ((store.find { cache with outage } issuer subject keyId).mapError .fault) := by
  cases store with
  | memory registry => exact .refl _
  | shared =>
    obtain ⟨outage', givesText, fields, texts⟩ := cache
    cases outage <;> cases outage' <;> cases h
    · exact .refl _
    · exact .error (.fault _ _)

theorem list_during_outage (h : outage.isSome = cache.outage.isSome) :
    Agree .shown ((store.list cache issuer subject).mapError .fault)
      ((store.list { cache with outage } issuer subject).mapError .fault) := by
  cases store with
  | memory registry => exact .refl _
  | shared =>
    obtain ⟨outage', givesText, fields, texts⟩ := cache
    cases outage <;> cases outage' <;> cases h
    · exact .refl _
    · exact .error (.fault _ _)

end KeyStore

def Pairing.during (now : Instant) : Pairing where
  likeness := .shown
  now := now
  stores a b := b.keys = a.keys ∧ b.records.store = a.records.store ∧
    ∃ outage, outage.isSome = a.records.cache.outage.isSome ∧
      b.records.cache = { a.records.cache with outage }
  tenant _ _ := True
  jti _ := True
  found := by
    rintro a b issuer subject ⟨hkeys, -, outage, h, hcache⟩ - keyId
    unfold Stores.found
    rw [hkeys, hcache]
    exact KeyStore.find_during_outage h keyId
  listed := by
    rintro a b issuer subject ⟨hkeys, -, outage, h, hcache⟩ -
    unfold Stores.listed
    rw [hkeys, hcache]
    exact KeyStore.list_during_outage h
  replied := by
    rintro a b call ⟨hkeys, hstore, outage, h, hcache⟩ -
    obtain ⟨answer, store, texts, e, e'⟩ :=
      Stores.replied_beside now hstore (by rw [hcache, h]) (by rw [hcache]) call
    rw [e, e']
    exact ⟨.refl _, hkeys, rfl, outage, h, by rw [hcache]⟩

theorem Site.DiffersInFaults.paired {s t : Site} (h : s.DiffersInFaults t)
    (context : Option Context) :
    Site.Paired (.during s.now) (s.within context) (t.within context) :=
  ⟨rfl, h.now, h.uptime, rfl, h.random, h.draws, h.disturbances, trivial, h.keys, h.replays, _,
    h.outage, h.cache⟩

section Issuing
open Act

variable {p : Pairing}

theorem Issuer.parallel_drawText : Parallel p drawText drawText := by
  have houtcome (s : Site) : drawText.outcome s =
      (.ok (s.randomText s.draws), { s with draws := s.draws + 1 }) := rfl
  intro s t h
  rw [houtcome, houtcome, h.random, h.draws]
  exact ⟨.ok _, h.left, h.right, h.uptime, h.context, rfl, rfl, h.disturbances, h.disturbed,
    h.stores⟩

theorem Issuer.parallel_sign (i : Issuer) (payload : Json) :
    Parallel p (i.sign payload) (i.sign payload) := by
  unfold sign
  split
  · exact parallel_throw (p.likeness.refl _)
  · split
    · exact parallel_pure _
    · split
      · exact parallel_throw (p.likeness.refl _)
      · exact (parallel_note _ _).bind fun _ _ => parallel_throw (p.likeness.refl _)

theorem Issuer.parallel_issue (i : Issuer) (lifespan : Span) (r : AccessRequest) :
    Parallel p (i.issue lifespan r) (i.issue lifespan r) := by
  refine parallel_checkContext.bind fun _ _ => parallel_get_bind fun s t h => ?_
  rw [h.left, h.right]
  refine (parallel_faulting _).bind fun expiresAt _ => ?_
  refine (parallel_drawText).bind fun jti _ => ?_
  exact (i.parallel_sign _).bind fun _ _ => parallel_pure _

theorem Grant.parallel_respond (g : Grant) (r : AccessRequest) :
    Parallel p (g.respond r) (g.respond r) :=
  (parallel_orFail _).bind fun _ _ => g.issuer.parallel_issue _ _

theorem Endpoint.parallel_exchange (e : Endpoint) (id : Text) (r : HttpRequest)
    (hw : ∀ raw, Assertion.Within p raw) : Parallel p (e.exchange id r) (e.exchange id r) := by
  intro s t h
  cases hrequest : e.requestOf id r with
  | error f =>
    rw [outcome_exchange_unread hrequest, outcome_exchange_unread hrequest]
    exact ⟨.refl _, h⟩
  | ok request =>
    obtain ⟨hresult, hgranted, hpaired⟩ := e.grant.handled_parallel (fun raw _ => hw raw) h
    rw [outcome_exchange hrequest, outcome_exchange hrequest, hgranted]
    generalize (e.grant.handled request s).1.result = x,
      (e.grant.handled request t).1.result = y at hresult
    cases hresult with
    | ok a => exact e.grant.parallel_respond _ _ _ hpaired
    | error hf => exact ⟨.error hf, hpaired⟩

end Issuing

theorem Grant.handled_during_outage {g : Grant} {r : AccessRequest} {s : Site}
    (hd : s.replays.Distinct) : ∃ made, (g.handled r s).2.calls = s.calls ++ made ∧
      ∀ call ∈ made, ∀ f, s.breaks call = some (.fault f) →
        (g.handled r s).1.result = .error (.refusal { call.outage with debug := some f.text }) := by
  obtain ⟨made, hadvances, hanswered, hends⟩ :=
    accounts_handled (g := g) (r := r) hd allows_any rulesAllowed_any fun _ _ _ _ => trivial
  refine ⟨made, hadvances.calls, fun call hcall f hbreaks => ?_⟩
  -- A call that broke was not answered, so it is none but the last of those that were made.
  have hunanswered {made : List StorageCall} (hcall : call ∈ made) : ¬ s.Answered made := by
    intro h
    rw [h call hcall] at hbreaks
    cases hbreaks
  cases hresult : (g.handled r s).1.result with
  | ok a => exact absurd (hanswered hresult) (hunanswered hcall)
  | error f' =>
    cases hends f' hresult with
    | own hall _ => exact absurd hall (hunanswered hcall)
    | broken hfirst hlast =>
      rcases List.mem_append.mp hcall with hcall | hcall
      · exact absurd hfirst (hunanswered hcall)
      · obtain rfl := List.mem_singleton.mp hcall
        obtain rfl := Option.some.inj (hlast.symm.trans hbreaks)
        rw [call.raises_fault]

structure Grant.Findings.Unverified (d : Findings) (g : Grant) (s : Site) : Prop where
  live : s.Live
  stillLive : (s.after (Signer.callFor d.token d.issuer d.subject)).Live
  refuted : ∃ keys, s.offers d.token d.issuer d.subject = .ok (some keys) ∧
    Signer.verdict d.token g.settings.algorithms keys = none

theorem Grant.handled_of_unverified {g : Grant} {r : AccessRequest} {s : Site} {d : Findings}
    (hread : d.Read g r) (hunverified : d.Unverified g s) :
    ∃ debug, (g.handled r s).1.result =
      .error (.refusal (Signer.notFound d.issuer d.subject debug)) := by
  obtain ⟨keys, hoffers, hverdict⟩ := hunverified.refuted
  obtain ⟨debug, s', hfind⟩ := Signer.outcome_find g.settings.algorithms
    hunverified.live hoffers hunverified.stillLive
  rw [hverdict] at hfind
  refine ⟨debug, ?_⟩
  rw [handled_of_clear_fails (clear_fails_of_find hread hfind)]

namespace Endpoint

variable {e : Endpoint} {id : Text} {r : HttpRequest} {s : Site}

theorem view_of_refused {context : Context} {request : AccessRequest} {f : Failure}
    (hstart : Context.start s.uptime e.timeout = .ok context)
    (hrequest : e.requestOf id r = .ok request)
    (h : (e.grant.handled request (s.within context)).1.result = .error f) :
    ((e.view id r).run s).1 = e.errorResponse f := by
  rw [view_of_started hstart]
  unfold Site.within at h
  rw [outcome_exchange hrequest, h]
  rfl

/-- Sites that differ in the faults of their storages give the same responses. The fault of a call
goes into the detail for the operator, and the response is the one that the call has for all faults:
for a look-up of keys, the one to a token that no key verifies. -/
theorem outages_unseen (hexpose : e.exposeDebug = false) (hd : s.replays.Distinct) :
    (∀ t, s.DiffersInFaults t → ((e.view id r).run t).1 = ((e.view id r).run s).1) ∧
    ∀ context request, Context.start s.uptime e.timeout = .ok context →
      e.requestOf id r = .ok request →
      (∃ made, (e.grant.handled request (s.within context)).2.calls = s.calls ++ made ∧
        ∀ call ∈ made, ∀ f, s.breaks call = some (.fault f) →
          (e.grant.handled request (s.within context)).1.result =
            .error (.refusal { call.outage with debug := some f.text }) ∧
          ((e.view id r).run s).1 =
            .uncached call.outage.kind.status (call.outage.body false)) ∧
      ∀ d : Grant.Findings, d.Read e.grant request → d.Unverified e.grant (s.within context) →
        ((e.view id r).run s).1 =
          .uncached 400 ((Signer.notFound d.issuer d.subject none).body false) := by
  refine ⟨fun t h => ?_, fun context request hstart hrequest => ⟨?_, fun d hread hunverified => ?_⟩⟩
  · cases hstart : Context.start s.uptime e.timeout with
    | error f =>
      have hstart' : Context.start t.uptime e.timeout = .error f := by rw [h.uptime, hstart]
      rw [view_of_unstarted hstart, view_of_unstarted hstart']
    | ok context =>
      have hstart' : Context.start t.uptime e.timeout = .ok context := by rw [h.uptime, hstart]
      have hwithin (raw : String) : Assertion.Within (.during s.now) raw :=
        ⟨fun _ _ _ _ _ => trivial, fun _ _ _ => trivial⟩
      rw [view_of_started hstart, view_of_started hstart']
      exact responseTo_of_agree hexpose
        (e.parallel_exchange id r hwithin _ _ (h.paired (some context))).1
  · have hwithin : Site.Untouched s (s.within context) := .of_eq rfl rfl rfl rfl
    obtain ⟨made, hcalls, hfails⟩ :=
      Grant.handled_during_outage (g := e.grant) (r := request) (hwithin.distinct hd)
    refine ⟨made, hcalls, fun call hcall f hbreaks => ?_⟩
    have hresult := hfails call hcall f (by rw [hwithin.breaks hd, hbreaks])
    refine ⟨hresult, ?_⟩
    rw [view_of_refused hstart hrequest hresult, errorResponse_outage hexpose]
  · obtain ⟨debug, hresult⟩ := Grant.handled_of_unverified hread hunverified
    have houtage := errorResponse_outage hexpose (Signer.callFor d.token d.issuer d.subject) debug
    rw [Signer.outage_callFor] at houtage
    rw [view_of_refused hstart hrequest hresult]
    exact houtage

end Endpoint
end AssertionGrant

namespace AssertionGrant.Specimen

def outageSite (f : Fault) : Site :=
  { scopedSite with disturbances := { keys := some { outcome := some (.error (.fault f)) } } }

theorem outages_answered_alike :
    ((endpoint.view "" post).run (outageSite ⟨.connection, "refused by 10.0.0.7"⟩)).1.status = 400 ∧
    ((endpoint.view "" post).run (outageSite ⟨.runtime, "no such table"⟩)).1 =
      ((endpoint.view "" post).run (outageSite ⟨.connection, "refused by 10.0.0.7"⟩)).1 := by
  have hd : (outageSite ⟨.connection, "refused by 10.0.0.7"⟩).replays.Distinct := List.nodup_nil
  have hdiffers : (outageSite ⟨.connection, "refused by 10.0.0.7"⟩).DiffersInFaults
      (outageSite ⟨.runtime, "no such table"⟩) := by
    refine ⟨rfl, rfl, rfl, rfl, rfl, rfl, rfl, rfl, ?_⟩
    exact ⟨.none, .answering none false (.error (.fault _ _)), .none, .none, .none⟩
  exact ⟨by decide +kernel, (Endpoint.outages_unseen rfl hd).1 _ hdiffers⟩

end AssertionGrant.Specimen
