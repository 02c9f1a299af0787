import AssertionGrant.Proofs.Exchange
import AssertionGrant.Proofs.Parallel

/-! What the endpoint answers. Whatever fails once the context of a request is there, the client, its
session, its form, a gate, a storage or the signing of the token, is answered in JSON that no cache may
keep. A timeout that makes no context is answered with no JSON at all. -/

namespace AssertionGrant

namespace Context

/-- A timeout with which a context can start: none, or seconds above zero that a double precision
number can hold. -/
def Admits (timeout : Option Number) : Prop :=
  ∀ seconds, timeout = some seconds → seconds.notAtMostZero = true ∧ seconds.isTooLarge = false

theorem start_of_admits {timeout : Option Number} (h : Admits timeout) (uptime : Binary64) :
    ∃ context, start uptime timeout = .ok context := by
  unfold start
  cases timeout with
  | none => exact ⟨_, rfl⟩
  | some seconds =>
    obtain ⟨hpositive, hsmall⟩ := h seconds rfl
    dsimp only
    rw [hpositive, hsmall]
    exact ⟨_, rfl⟩

theorem start_of_not_admits {timeout : Option Number} (h : ¬ Admits timeout) (uptime : Binary64) :
    ∃ f, start uptime timeout = .error f := by
  unfold Admits at h
  push Not at h
  obtain ⟨seconds, rfl, himplies⟩ := h
  unfold start
  dsimp only
  split
  · exact ⟨_, rfl⟩
  · next hpositive =>
    have hlarge : seconds.isTooLarge = true := by
      simpa using himplies (by simpa using hpositive)
    rw [if_pos hlarge]
    exact ⟨_, rfl⟩

end Context

namespace Endpoint
open Act

theorem errorResponse_eq (e : Endpoint) (f : Failure) : e.errorResponse f =
    match f with
    | .refusal q =>
      if q.kind = .unknownRequest then
        .uncached 400 ((Refusal.bare .unsupportedGrantType).body false)
      else .uncached q.kind.status (q.body e.exposeDebug)
    | .fault _ => .uncached 500 ((Refusal.bare .serverError).body false) := by
  have hbare (kind : RefusalKind) : (Refusal.bare kind).body e.exposeDebug =
      (Refusal.bare kind).body false := by
    unfold Refusal.body Refusal.bare
    cases e.exposeDebug <;> rfl
  unfold errorResponse errorFor
  cases f with
  | refusal q =>
    dsimp only
    split
    · rw [hbare]
      rfl
    · rfl
  | fault x =>
    dsimp only
    rw [hbare]
    rfl

variable [Json.Nesting] {e : Endpoint} {id : Text} {r : HttpRequest} {s : Site} {f : Failure}
  {response : TokenResponse}

def Issues (e : Endpoint) (id : Text) (r : HttpRequest) (s : Site) (response : TokenResponse) :
    Prop :=
  ∃ request, e.requestOf id r = .ok request ∧ (e.grant.handled request s).1.result = .ok () ∧
    ∃ s', (e.grant.respond (e.grant.handled request s).1.request).Gives
      (e.grant.handled request s).2 response s'

def Breaks (e : Endpoint) (id : Text) (r : HttpRequest) (s : Site) (f : Failure) : Prop :=
  e.requestOf id r = .error f ∨ ∃ request, e.requestOf id r = .ok request ∧
    ((e.grant.handled request s).1.result = .error f ∨
      (e.grant.handled request s).1.result = .ok () ∧
        ∃ s', (e.grant.respond (e.grant.handled request s).1.request).Fails
          (e.grant.handled request s).2 f s')

theorem issues_iff : e.Issues id r s response ↔ ∃ s', (e.exchange id r).Gives s response s' := by
  simp only [exchange_gives_iff, Issues]
  constructor
  · rintro ⟨request, hrequest, hok, s', hrespond⟩
    exact ⟨s', request, hrequest, hok, hrespond⟩
  · rintro ⟨s', request, hrequest, hok, hrespond⟩
    exact ⟨request, hrequest, hok, s', hrespond⟩

theorem breaks_iff : e.Breaks id r s f ↔ ∃ s', (e.exchange id r).Fails s f s' := by
  constructor
  · rintro (hrequest | ⟨request, hrequest, hresult | ⟨hok, s', hrespond⟩⟩)
    · exact ⟨s, outcome_exchange_unread hrequest⟩
    · refine ⟨(e.grant.handled request s).2, (outcome_exchange hrequest).trans ?_⟩
      exact fails_bind.mpr (.inl (fails_orFail.mpr ⟨hresult, rfl⟩))
    · refine ⟨s', (outcome_exchange hrequest).trans ?_⟩
      exact fails_bind.mpr (.inr ⟨(), _, gives_orFail.mpr ⟨hok, rfl⟩, hrespond⟩)
  · rintro ⟨s', h⟩
    cases hrequest : e.requestOf id r with
    | error f' =>
      have hunread := outcome_exchange_unread (s := s) hrequest
      obtain ⟨hf, -⟩ := Prod.mk.inj (hunread.symm.trans h)
      rw [Except.error.inj hf] at hrequest
      exact .inl hrequest
    | ok request =>
      refine .inr ⟨request, hrequest, ?_⟩
      rcases fails_bind.mp ((outcome_exchange hrequest).symm.trans h) with h | ⟨_, s₁, h₁, h⟩
      · exact .inl (fails_orFail.mp h).1
      · obtain ⟨hok, rfl⟩ := gives_orFail.mp h₁
        exact .inr ⟨hok, s', h⟩

theorem issues_or_breaks (e : Endpoint) (id : Text) (r : HttpRequest) (s : Site) :
    (∃ response, e.Issues id r s response) ∨ ∃ f, e.Breaks id r s f := by
  rcases (e.exchange id r).gives_or_fails s with ⟨response, s', h⟩ | ⟨f, s', h⟩
  · exact .inl ⟨response, issues_iff.mpr ⟨s', h⟩⟩
  · exact .inr ⟨f, breaks_iff.mpr ⟨s', h⟩⟩

section Started

variable {context : Context} (hstart : Context.start s.uptime e.timeout = .ok context)
include hstart

theorem view_of_issues (h : e.Issues id r (s.within context) response) :
    ((e.view id r).run s).1 = .uncached 200 response.body := by
  obtain ⟨s', h⟩ := issues_iff.mp h
  rw [view_of_started hstart]
  exact congrArg (fun outcome => e.responseTo outcome.1) h

theorem view_of_breaks (h : e.Breaks id r (s.within context) f) :
    ((e.view id r).run s).1 = e.errorResponse f := by
  obtain ⟨s', h⟩ := breaks_iff.mp h
  rw [view_of_started hstart]
  exact congrArg (fun outcome => e.responseTo outcome.1) h

theorem view_status_iff : ((e.view id r).run s).1.status = 200 ↔
    ∃ response, e.Issues id r (s.within context) response := by
  constructor
  · intro h
    rcases issues_or_breaks e id r (s.within context) with hissues | ⟨f, hbreaks⟩
    · exact hissues
    · rw [view_of_breaks hstart hbreaks] at h
      exact absurd h (e.errorResponse_status f)
  · rintro ⟨response, h⟩
    rw [view_of_issues hstart h]
    rfl

end Started

/-- The endpoint answers in JSON that no cache may keep exactly if its timeout can start a context.
Without one it answers with a bare status 500 before it has looked at the request. With one, both phases
succeed and status 200 comes with the token, or a failure is answered: a request for no known grant as
an unsupported grant type, any other refusal in its own words, and anything else as a server error
without detail. -/
theorem view_answers_iff (e : Endpoint) (id : Text) (r : HttpRequest) (s : Site) :
    ((∃ status body, ((e.view id r).run s).1 = .uncached status body) ↔
      Context.Admits e.timeout) ∧
    (¬ Context.Admits e.timeout → (e.view id r).run s = (.plain 500, s)) ∧
    ∀ context, Context.start s.uptime e.timeout = .ok context →
      (((e.view id r).run s).1.status = 200 ↔
        ∃ response, e.Issues id r (s.within context) response) ∧
      (∀ response, e.Issues id r (s.within context) response →
        ((e.view id r).run s).1 = .uncached 200 response.body) ∧
      ((¬ ∃ response, e.Issues id r (s.within context) response) →
        ∃ f, e.Breaks id r (s.within context) f) ∧
      ∀ f, e.Breaks id r (s.within context) f → ((e.view id r).run s).1 =
        match f with
        | .refusal q =>
          if q.kind = .unknownRequest then
            .uncached 400 ((Refusal.bare .unsupportedGrantType).body false)
          else .uncached q.kind.status (q.body e.exposeDebug)
        | .fault _ => .uncached 500 ((Refusal.bare .serverError).body false) := by
  have hunstarted (h : ¬ Context.Admits e.timeout) : (e.view id r).run s = (.plain 500, s) := by
    obtain ⟨f, hstart⟩ := Context.start_of_not_admits h s.uptime
    simp only [view, StateT.run_bind, StateT.run_get, pure_bind, hstart]
    rfl
  refine ⟨⟨?_, fun h => ?_⟩, hunstarted, fun context hstart => ⟨view_status_iff hstart, ?_, ?_, ?_⟩⟩
  · rintro ⟨status, body, h⟩
    by_contra hadmits
    rw [hunstarted hadmits] at h
    cases h
  · obtain ⟨context, hstart⟩ := Context.start_of_admits h s.uptime
    rcases issues_or_breaks e id r (s.within context) with ⟨response, hissues⟩ | ⟨f, hbreaks⟩
    · exact ⟨200, _, view_of_issues hstart hissues⟩
    · exact ⟨_, _, view_of_breaks hstart hbreaks⟩
  · exact fun response h => view_of_issues hstart h
  · exact (issues_or_breaks e id r (s.within context)).resolve_left
  · intro f h
    rw [view_of_breaks hstart h]
    exact errorResponse_eq e f

end Endpoint

namespace Specimen

theorem post_unanswered :
    (({ endpoint with timeout := some (.int 0) } : Endpoint).view "" post).run scopedSite =
      (.plain 500, scopedSite) := by
  refine (Endpoint.view_answers_iff _ "" post scopedSite).2.1 fun h => ?_
  cases (h (.int 0) rfl).1

end Specimen
end AssertionGrant
