import AssertionGrant.Proofs.Undisturbed

/-! Requests that carry one assertion and race for its mark. Each validates its claims and marks
their identifier later; in between, others do the same, calls are made for other identifiers and
time passes. A mark is passed only when the records of all marks before it have ended. So until the
assertion expires one request gets past its mark at most; one that has validated and marks only
after the expiry gets past it as well. -/

namespace AssertionGrant

inductive Move where
  | validate (request : Nat) (context : Option Context)
  | mark (request : Nat) (context : Option Context)
  | lookUp (jti : Text) (context : Option Context)
  | record (jti : Text) (expiry : Instant) (context : Option Context)
  | pass (micros : Nat) (uptime : Binary64)

def Move.Elsewhere (jti : Text) : Move → Prop
  | .record j _ _ => j ≠ jti
  | _ => True

/-- A site with the requests that have validated and not yet marked, each with the expiry that it
found, and those that got past their mark, each with the reading of the clock. -/
structure Race where
  site : Site
  validated : List (Nat × Instant) := []
  passed : List (Nat × Instant) := []

namespace Race

variable {settings : Settings} {c : Claims} {s₀ : Site} {expiry : Instant} {race : Race}

def step (settings : Settings) (c : Claims) (race : Race) : Move → Race
  | .validate request context =>
    match (Claims.validate settings c race.site.now).outcome { race.site with context } with
    | (.ok expiry, site) => { race with site, validated := race.validated ++ [(request, expiry)] }
    | (.error _, site) => { race with site }
  | .mark request context =>
    match race.validated.find? (·.1 == request) with
    | none => race
    | some (_, expiry) =>
      let validated := race.validated.eraseP (·.1 == request)
      match (SingleUse.mark c.jwtId expiry).outcome { race.site with context } with
      | (.ok (), site) =>
        { site, validated, passed := race.passed ++ [(request, race.site.now)] }
      | (.error _, site) => { race with site, validated }
  | .lookUp jti context =>
    { race with site := ((SingleUse.isUsed jti).outcome { race.site with context }).2 }
  | .record jti expiry context =>
    { race with site := ((SingleUse.mark jti expiry).outcome { race.site with context }).2 }
  | .pass micros uptime =>
    { race with site := { race.site with now := ⟨race.site.now.micros + micros⟩, uptime } }

def run (settings : Settings) (c : Claims) (s : Site) (moves : List Move) : Race :=
  moves.foldl (step settings c) { site := s }

def Marks (s₀ : Site) (jti : Text) (expiry : Instant) (race : Race) (t : Instant) : Prop :=
  s₀.records.Holds t jti ∨
    ∃ p ∈ race.passed, t.micros < (s₀.replays.endOf p.2 expiry).micros

structure Fair (s₀ : Site) (jti : Text) (expiry : Instant) (race : Race) : Prop where
  sound : race.site.Sound
  threshold : race.site.replays.threshold? = s₀.replays.threshold?
  validated : ∀ v ∈ race.validated, v.2 = expiry
  holds : ∀ t, race.site.now.micros ≤ t.micros →
    (race.site.records.Holds t jti ↔ race.Marks s₀ jti expiry t)
  apart : race.passed.Pairwise fun p q => (s₀.replays.endOf p.2 expiry).micros ≤ q.2.micros

theorem Fair.start (hs : s₀.Sound) (jti : Text) (expiry : Instant) :
    Fair s₀ jti expiry { site := s₀ } where
  sound := hs
  threshold := rfl
  validated _ h := absurd h List.not_mem_nil
  holds t _ := by simp only [Marks, List.not_mem_nil, false_and, exists_false, or_false]
  apart := List.Pairwise.nil

theorem Fair.untouched {s : Site} (h : Fair s₀ c.jwtId expiry race)
    (hu : Site.Untouched race.site s) : Fair s₀ c.jwtId expiry { race with site := s } where
  sound := (hu.kept h.sound).sound
  threshold := (hu.kept h.sound).threshold.trans h.threshold
  validated := h.validated
  holds t ht := by
    have ht : race.site.now.micros ≤ t.micros := hu.now ▸ ht
    exact ((hu.records h.sound.distinct).holds t _ ht).trans (h.holds t ht)
  apart := h.apart

theorem untouched_context (s : Site) (context : Option Context) :
    Site.Untouched s { s with context } := .of_eq rfl rfl rfl rfl

theorem Fair.marked {s : Site} (h : Fair s₀ c.jwtId expiry race) (request : Nat)
    (hm : Site.MarkedBy c.jwtId expiry race.site s) :
    Fair s₀ c.jwtId expiry
      { race with site := s, passed := race.passed ++ [(request, race.site.now)] } where
  sound := (hm.kept h.sound).sound
  threshold := (hm.kept h.sound).threshold.trans h.threshold
  validated := h.validated
  holds t ht := by
    have ht : race.site.now.micros ≤ t.micros := hm.now ▸ ht
    refine ((hm.records h.sound.distinct).holds t _ ht).trans ?_
    rw [h.holds t ht, ReplayStore.endOf_congr h.threshold]
    unfold Marks
    simp only [List.mem_append, List.mem_singleton, or_and_right, exists_or, exists_eq_left,
      true_and, or_assoc]
  apart := by
    refine List.pairwise_append.mpr ⟨h.apart, List.pairwise_singleton _ _, ?_⟩
    intro p hp q hq
    rw [List.mem_singleton.mp hq]
    -- An earlier mark whose record were still live would have made this one fail.
    have hfresh := hm.fresh h.sound.distinct
    rw [show race.site.records.Holds race.site.now c.jwtId ↔ _ from
      h.holds race.site.now (Int.le_refl _)] at hfresh
    by_contra hlt
    exact hfresh (.inr ⟨p, hp, Int.not_le.mp hlt⟩)

theorem Fair.fewer {validated : List (Nat × Instant)} (h : Fair s₀ c.jwtId expiry race)
    (hv : ∀ v ∈ validated, v ∈ race.validated) :
    Fair s₀ c.jwtId expiry { race with validated } :=
  ⟨h.sound, h.threshold, fun v hm => h.validated v (hv v hm), h.holds, h.apart⟩

theorem fair_step (he : c.expiresAt = some expiry) (h : Fair s₀ c.jwtId expiry race) (m : Move)
    (hm : m.Elsewhere c.jwtId) : Fair s₀ c.jwtId expiry (race.step settings c m) := by
  cases m with
  | validate request context =>
    have hu := (untouched_context race.site context).trans
      (Claims.quiet_validate settings c race.site.now _)
    unfold step
    dsimp only
    rcases hv : (Claims.validate settings c race.site.now).outcome { race.site with context }
      with ⟨_ | expiry', site⟩
    all_goals rw [hv] at hu
    · exact h.untouched hu
    · have hsame : expiry' = expiry := by
        have hstateless := Claims.checkStateless_of_validate hv
        exact Option.some.inj ((Claims.checkStateless_eq_ok.mp hstateless).expires.symm.trans he)
      have hf := h.untouched hu
      refine ⟨hf.sound, hf.threshold, ?_, hf.holds, hf.apart⟩
      intro v hv
      rcases List.mem_append.mp hv with hv | hv
      · exact h.validated v hv
      · rw [List.mem_singleton.mp hv]
        exact hsame
  | mark request context =>
    have hc := untouched_context race.site context
    unfold step
    dsimp only
    split
    · exact h
    · next expiry' hfind =>
      obtain rfl : expiry' = expiry := h.validated _ (List.mem_of_find?_eq_some hfind)
      have hfewer : ∀ v ∈ race.validated.eraseP (·.1 == request), v ∈ race.validated :=
        fun v hv => List.mem_of_mem_eraseP hv
      have hfaithful := hc.faithful h.sound.faithful
      split
      · next site hmark =>
        have hmarked := SingleUse.markedBy_of_mark_gives hfaithful hmark
        exact (h.marked request (hc.trans_markedBy hmarked)).fewer hfewer
      · next f site hmark =>
        exact (h.untouched (hc.trans (SingleUse.untouched_of_mark_fails hmark))).fewer hfewer
  | lookUp jti context =>
    exact h.untouched ((untouched_context race.site context).trans (SingleUse.quiet_isUsed jti _))
  | record jti expiry' context =>
    have hc := untouched_context race.site context
    unfold step
    dsimp only
    rcases (SingleUse.mark jti expiry').gives_or_fails { race.site with context } with
      ⟨_, s, hmark⟩ | ⟨f, s, hmark⟩
    · rw [hmark]
      have hmarked := hc.trans_markedBy
        (SingleUse.markedBy_of_mark_gives (hc.faithful h.sound.faithful) hmark)
      have hk := hmarked.kept h.sound
      refine ⟨hk.sound, hk.threshold.trans h.threshold, h.validated, fun t ht => ?_, h.apart⟩
      have ht : race.site.now.micros ≤ t.micros := hmarked.now ▸ ht
      refine ((hmarked.records h.sound.distinct).holds t _ ht).trans ?_
      -- The record that is new is that of another identifier.
      rw [or_iff_left fun hj => hm hj.1.symm]
      exact h.holds t ht
    · rw [hmark]
      exact h.untouched (hc.trans (SingleUse.untouched_of_mark_fails hmark))
  | pass micros uptime =>
    have hk : Site.Kept race.site (race.step settings c (.pass micros uptime)).site :=
      .of_eq h.sound (by simp only [step]; omega) rfl rfl rfl
    refine ⟨hk.sound, h.threshold, h.validated, fun t ht => ?_, h.apart⟩
    exact h.holds t (Int.le_trans hk.now ht)

theorem fair_run (he : c.expiresAt = some expiry) (hs : s₀.Sound) (moves : List Move)
    (hm : ∀ m ∈ moves, m.Elsewhere c.jwtId) :
    Fair s₀ c.jwtId expiry (run settings c s₀ moves) := by
  unfold run
  -- The induction is on the moves still to come, so the race so far has to be any fair one.
  suffices ∀ race, Fair s₀ c.jwtId expiry race →
      Fair s₀ c.jwtId expiry (moves.foldl (step settings c) race) from
    this _ (Fair.start hs _ _)
  induction moves with
  | nil => exact fun race h => h
  | cons m moves ih =>
    intro race h
    exact ih (fun m hm' => hm m (List.mem_cons_of_mem _ hm')) _
      (fair_step he h m (hm m List.mem_cons_self))

/-- At a calm site one who has validated passes the mark if no record of
the identifier is live, and is refused as a replay if one is. -/
theorem Fair.mark_cases (h : Fair s₀ c.jwtId expiry race) {request : Nat}
    {context : Option Context} (hv : race.validated.any (·.1 == request) = true)
    (hc : Site.Calm { race.site with context }) :
    ¬ race.Marks s₀ c.jwtId expiry race.site.now ∧
      (race.step settings c (.mark request context)).passed =
        race.passed ++ [(request, race.site.now)] ∨
    race.Marks s₀ c.jwtId expiry race.site.now ∧
      (race.step settings c (.mark request context)).passed = race.passed ∧
      ∃ s, (SingleUse.mark c.jwtId expiry).Fails { race.site with context }
        (.refuse .replayed) s := by
  have hholds := h.holds race.site.now (Int.le_refl _)
  obtain ⟨⟨i, expiry'⟩, hfind⟩ : ∃ v, race.validated.find? (·.1 == request) = some v := by
    obtain ⟨v, hv, e⟩ := List.any_eq_true.mp hv
    exact Option.isSome_iff_exists.mp (List.find?_isSome.mpr ⟨v, hv, e⟩)
  obtain rfl : expiry' = expiry := h.validated _ (List.mem_of_find?_eq_some hfind)
  unfold step
  dsimp only
  rw [hfind]
  dsimp only
  rcases SingleUse.mark_calm hc c.jwtId _ with ⟨hh, s, hmark⟩ | ⟨hh, s, hmark⟩
  · rw [hmark]
    exact .inr ⟨hholds.mp hh, rfl, s, hmark⟩
  · rw [hmark]
    exact .inl ⟨fun hn => hh (hholds.mpr hn), rfl⟩

/-- Of those who race, each passes only after the records of all before have ended; so before the
expiry one passes at most. Conversely, whoever has validated passes once those records have ended,
and not before. -/
theorem passes_iff_ended (he : c.expiresAt = some expiry) (hs : s₀.Sound) (moves : List Move)
    (hm : ∀ m ∈ moves, m.Elsewhere c.jwtId) :
    let race := run settings c s₀ moves
    race.passed.Pairwise (fun p q => (s₀.replays.endOf p.2 expiry).micros ≤ q.2.micros) ∧
    ((∀ p ∈ race.passed, s₀.replays.KeepsUntil p.2 expiry) →
      (race.passed.filter fun p => decide (p.2.micros < expiry.micros)).length ≤ 1) ∧
    ∀ request context, race.validated.any (·.1 == request) = true →
      Site.Calm { race.site with context } →
      ¬ race.Marks s₀ c.jwtId expiry race.site.now ∧
        (race.step settings c (.mark request context)).passed =
          race.passed ++ [(request, race.site.now)] ∨
      race.Marks s₀ c.jwtId expiry race.site.now ∧
        (race.step settings c (.mark request context)).passed = race.passed ∧
        ∃ s, (SingleUse.mark c.jwtId expiry).Fails { race.site with context }
          (.refuse .replayed) s := by
  intro race
  have h : Fair s₀ c.jwtId expiry race := fair_run he hs moves hm
  refine ⟨h.apart, fun hkeeps => ?_, fun request context hv hc => h.mark_cases hv hc⟩
  refine length_le_one_of_pairwise ((h.apart.filter _).imp_of_mem ?_)
  intro p q hp hq hended
  have hend := ReplayStore.le_endOf (hkeeps p (List.mem_of_mem_filter hp))
  have hlt : q.2.micros < expiry.micros := by simpa using (List.mem_filter.mp hq).2
  omega

theorem both_pass_at_expiry :
    let c : Claims :=
      { audience := ["as"], expiresAt := some ⟨5⟩, issuedAt := some ⟨0⟩, jwtId := "j" }
    let race := run { tokenUrl := "as" } c { now := ⟨0⟩ }
      [.validate 0 none, .validate 1 none, .mark 0 none, .pass 5 .zero, .mark 1 none]
    race.passed = [(0, ⟨0⟩), (1, ⟨5⟩)] ∧ race.passed.Pairwise fun _ q => 5 ≤ q.2.micros := by
  have hsound : Site.Sound { now := ⟨0⟩ } := ⟨List.nodup_nil, fun h => by cases h⟩
  refine ⟨by decide +kernel, (passes_iff_ended rfl hsound _ ?_).1⟩
  simp only [List.forall_mem_cons, Move.Elsewhere, List.not_mem_nil, false_implies, implies_true,
    and_self]

end Race
end AssertionGrant
