import AssertionGrant.Proofs.Replies
import AssertionGrant.Proofs.Retention
import AssertionGrant.Proofs.Words

/-! What a failed request leaves behind. Up to the mark of the identifier nothing is left behind;
of a request that fails after it, for its session or for an expiry beyond the calendar, the mark
stays, and the grants stay as well unless the session could not hold a grant. -/

namespace AssertionGrant

theorem Session.setSubject_eq_error {session : Session} {subject : Text} {f : Failure} :
    session.setSubject subject = .error f ↔ session.subjectFailure = some f := by
  unfold setSubject
  split
  · next f' h =>
    rw [h]
    exact ⟨fun e => congrArg some (Except.error.inj e), fun e => congrArg _ (Option.some.inj e)⟩
  · next h =>
    rw [h]
    exact ⟨nofun, nofun⟩

namespace Grant
open Act

def Dates (g : Grant) (r : AccessRequest) (now : Instant) (session dated : Session) : Prop :=
  ∃ expiry, g.expiryAt r now = some expiry ∧ session.setExpiry accessToken expiry = .ok dated

variable {g : Grant} {r : AccessRequest} {now : Instant} {c : Claims} {f : Failure}
  {session dated : Session}

theorem Dates.unique {dated' : Session} (h : g.Dates r now session dated)
    (h' : g.Dates r now session dated') : dated = dated' := by
  obtain ⟨expiry, he, hd⟩ := h
  obtain ⟨expiry', he', hd'⟩ := h'
  obtain rfl := Option.some.inj (he.symm.trans he')
  exact Except.ok.inj (hd.symm.trans hd')

/-- An approved request that fails has its grants, and the expiry on its session if that could be
set, as then the subject could not. -/
theorem request_of_settle_error (h : (g.settle r c session now).result = .error f) :
    (∀ dated, ¬ g.Dates r now session dated) ∧ (g.settle r c session now).request = granting r c ∨
      ∃ dated, g.Dates r now session dated ∧ dated.setSubject c.subject = .error f ∧
        (g.settle r c session now).request = { granting r c with session := some dated } := by
  unfold settle at h ⊢
  cases he : g.expiryAt r now with
  | none =>
    refine .inl ⟨?_, rfl⟩
    rintro dated ⟨expiry, he', -⟩
    rw [he] at he'
    cases he'
  | some expiry =>
    simp only [he] at h ⊢
    cases hd : session.setExpiry accessToken expiry with
    | error f' =>
      refine .inl ⟨?_, rfl⟩
      rintro dated ⟨expiry', he', hd'⟩
      obtain rfl := Option.some.inj (he.symm.trans he')
      rw [hd] at hd'
      cases hd'
    | ok dated =>
      simp only [hd] at h ⊢
      cases hsubject : dated.setSubject c.subject with
      | error f' =>
        rw [hsubject] at h
        cases h
        exact .inr ⟨dated, ⟨expiry, he, hd⟩, hsubject, rfl⟩
      | ok _ =>
        rw [hsubject] at h
        cases h

theorem session_granting (r : AccessRequest) (c : Claims) : (granting r c).session = r.session := by
  unfold granting
  rw [AccessRequest.foldl_grantScope, AccessRequest.foldl_grantAudience]

theorem session_of_sessionOf (h : sessionOf r = .ok session) : r.session = some session := by
  unfold sessionOf at h
  split at h
  · next held hheld =>
    split at h
    · rw [hheld, Except.ok.inj h]
    · cases h
  · cases h

theorem request_eq_of_settle_error (hsession : r.session = some session)
    (h : (g.settle r c session now).result = .error f) :
    (g.settle r c session now).request = r ↔
      granting r c = r ∧ ∀ dated, g.Dates r now session dated → dated = session := by
  rcases request_of_settle_error h with ⟨hno, e⟩ | ⟨dated, hd, -, e⟩
  · rw [e]
    exact ⟨fun hr => ⟨hr, fun dated hd => absurd hd (hno dated)⟩, And.left⟩
  · rw [e]
    constructor
    · intro hr
      have hheld : some dated = some session := (congrArg AccessRequest.session hr).trans hsession
      refine ⟨?_, fun dated' hd' => (hd'.unique hd).trans (Option.some.inj hheld)⟩
      refine Eq.trans ?_ hr
      rw [hheld, ← hsession, ← session_granting r c]
    · rintro ⟨hr, hdated⟩
      rw [hr, hdated dated hd, ← hsession]

variable [Json.Nesting] {s s' : Site}

theorem distinguishable_of_clear_gives (hs : s.Sound) (h : (g.clear r).Gives s c s')
    (hj : c.jwtId ≠ []) : ¬ Records.Indistinguishable s.now s.records s'.records := by
  obtain ⟨-, expiry, hr, ⟨hj', -⟩ | ⟨-, hm⟩⟩ := of_clear_gives hs.faithful h
  · exact absurd hj' hj
  · have hlt := (Claims.checkStateless_eq_ok.mp hr).unexpired
    exact (hm.records hs.distinct).distinguishable hs.distinct (hm.up hs.distinct)
      (hm.fresh hs.distinct) (ReplayStore.lt_endOf hlt)

/-- A failed request leaves no trace exactly if it failed before the mark, or had no identifier to
mark and nothing to grant or to set. Its session is as before, unless the expiry was set on it and
the subject could not be. -/
theorem failed_traceless_iff (hs : s.Sound) (h : (g.handled r s).1.result = .error f) :
    ((g.handled r s).1.request.session = r.session ∨
      ∃ session dated, sessionOf r = .ok session ∧ g.Dates r s.now session dated ∧
        dated.subjectFailure = some f ∧ (g.handled r s).1.request.session = some dated) ∧
    ((g.handled r s).1.request = r ∧
        Records.Indistinguishable s.now s.records (g.handled r s).2.records ↔
      ∀ c s', (g.clear r).Gives s c s' →
        c.jwtId = [] ∧ ∀ session, sessionOf r = .ok session →
          granting r c = r ∧ ∀ dated, g.Dates r s.now session dated → dated = session) := by
  rcases g.handled_cases r s with ⟨f', s', hc, e, hu⟩ | ⟨c, s', log, hc, e, hend⟩
  · rw [e]
    refine ⟨.inl rfl, fun _ c s₁ hg => absurd hc hg.not_fails, fun _ => ⟨rfl, ?_⟩⟩
    exact (hu.records hs.distinct).indistinguishable hs.distinct
  · have hrecords : (g.handled r s).2.records = s'.records := by
      rw [e]
      rfl
    have hcalm : c.jwtId = [] → Records.Indistinguishable s.now s.records s'.records := by
      obtain ⟨-, _, -, ⟨-, hu⟩ | ⟨hj, -⟩⟩ := of_clear_gives hs.faithful hc
      · exact fun _ => (hu.records hs.distinct).indistinguishable hs.distinct
      · exact fun hj' => absurd hj' hj
    have hmarked : Records.Indistinguishable s.now s.records s'.records → c.jwtId = [] := by
      intro hi
      by_contra hj
      exact distinguishable_of_clear_gives hs hc hj hi
    rw [hrecords]
    -- Past the mark a request fails for its session, with nothing granted, or for its expiry or a
    -- session that cannot be set, with all granted.
    rcases hend with ⟨f', hf, e'⟩ | ⟨session, hsession, e'⟩
    · rw [e']
      refine ⟨.inl rfl, ?_, fun hall => ⟨rfl, hcalm (hall c s' hc).1⟩⟩
      rintro ⟨-, hi⟩ c₁ s₁ hg
      obtain ⟨rfl, rfl⟩ := hc.unique hg
      refine ⟨hmarked hi, fun session hsession => ?_⟩
      rw [hf] at hsession
      cases hsession
    · have hheld := session_of_sessionOf hsession
      rw [e'] at h ⊢
      rw [now_of_clear_gives hc] at h ⊢
      refine ⟨?_, ?_, ?_⟩
      · rcases request_of_settle_error h with ⟨-, er⟩ | ⟨dated, hd, hfails, er⟩
        · exact .inl (er ▸ session_granting r c)
        · refine .inr ⟨session, dated, hsession, hd, ?_, congrArg AccessRequest.session er⟩
          exact Session.setSubject_eq_error.mp hfails
      · rintro ⟨hr, hi⟩ c₁ s₁ hg
        obtain ⟨rfl, rfl⟩ := hc.unique hg
        refine ⟨hmarked hi, fun session' hsession' => ?_⟩
        obtain rfl := Except.ok.inj (hsession.symm.trans hsession')
        exact (request_eq_of_settle_error hheld h).mp hr
      · intro hall
        obtain ⟨hj, hgrants⟩ := hall c s' hc
        exact ⟨(request_eq_of_settle_error hheld h).mpr (hgrants session hsession), hcalm hj⟩

end Grant
end AssertionGrant

namespace AssertionGrant.Specimen
open Act Grant

theorem clear_sessionless :
    ∃ c s', (grant.clear sessionless).Gives site c s' ∧ c.jwtId = "j" := by
  have hclear : (match ((grant.clear sessionless).outcome site).1 with
      | .ok c => c.jwtId == "j"
      | .error _ => false) = true := by decide +kernel
  rcases (grant.clear sessionless).gives_or_fails site with ⟨c, s', h⟩ | ⟨f, s', h⟩
  · rw [h] at hclear
    exact ⟨c, s', h, by simpa using hclear⟩
  · rw [h] at hclear
    cases hclear

theorem sessionless_leaves_mark :
    (grant.handled sessionless site).1 = ⟨sessionless, .error (unfitSession none)⟩ ∧
      ¬ Records.Indistinguishable site.now site.records
        (grant.handled sessionless site).2.records := by
  obtain ⟨c, s', hc, hj⟩ := clear_sessionless
  have hhandled : (grant.handled sessionless site).1 =
      ⟨sessionless, .error (unfitSession none)⟩ := by
    rcases grant.handled_cases sessionless site with
      ⟨f, s₁, hf, -⟩ | ⟨c₁, s₁, log, -, -, ⟨f, hf, e⟩ | ⟨session, hsession, -⟩⟩
    · exact absurd hf hc.not_fails
    · rw [e, ← Except.error.inj hf]
      rfl
    · cases hsession
  refine ⟨hhandled, fun hi => ?_⟩
  have htrace := (failed_traceless_iff sound_site (congrArg Handled.result hhandled)).2
  have hall := htrace.mp ⟨congrArg Handled.request hhandled, hi⟩
  rw [(hall c s' hc).1] at hj
  exact absurd hj (by decide)

end AssertionGrant.Specimen
