import AssertionGrant.Proofs.Verdicts
import Mathlib.Data.Set.Basic

/-! Which rule is reported when claims break several, and when claims pass. The rules are checked in
the order of their ranks, so the broken one of least rank is reported, and the storage is asked only
when none is broken. Claims that keep the rules in which the clock has no part pass in one window of
time. -/

namespace AssertionGrant

namespace Claims

def Violation.rank : Violation → Nat
  | .noAudience => 0
  | .otherAudience _ => 1
  | .noExpiry => 2
  | .expired => 3
  | .notYet _ => 4
  | .noIssueDate => 5
  | .tooLong .. => 6
  | .noJwtId => 7

def Breaks (settings : Settings) (now : Instant) (c : Claims) : Violation → Prop
  | .noAudience => c.audience = []
  | .otherAudience tokenUrl => tokenUrl = settings.tokenUrl ∧ tokenUrl ∉ c.audience
  | .noExpiry => c.expiresAt = none
  | .expired => ∃ expiry, c.expiresAt = some expiry ∧ expiry.micros ≤ now.micros
  | .notYet since => c.notBefore = some since ∧ now.micros ≤ since.micros
  | .noIssueDate => settings.issuedAtOptional = false ∧ c.issuedAt = none
  | .tooLong expiry issuedAt => c.expiresAt = some expiry ∧ c.issuedAt.getD now = issuedAt ∧
      settings.maxDuration.micros < expiry.micros - issuedAt.micros
  | .noJwtId => settings.jwtIdOptional = false ∧ c.jwtId = []

def Clear (settings : Settings) (now : Instant) (c : Claims) (n : Nat) : Prop :=
  ∀ v, c.Breaks settings now v → n ≤ v.rank

structure BreaksFirst (settings : Settings) (now : Instant) (c : Claims) (v : Violation) :
    Prop where
  broken : c.Breaks settings now v
  clear : c.Clear settings now v.rank

variable {settings : Settings} {c : Claims} {now expiry : Instant} {v w : Violation}

theorem Breaks.unique (hv : c.Breaks settings now v) (hw : c.Breaks settings now w)
    (hrank : v.rank = w.rank) : v = w := by
  cases v <;> cases w <;> simp only [Violation.rank] at hrank <;> try omega
  all_goals simp_all [Breaks]

theorem BreaksFirst.unique (hv : c.BreaksFirst settings now v)
    (hw : c.BreaksFirst settings now w) : v = w :=
  hv.broken.unique hw.broken
    (Nat.le_antisymm (hv.clear w hw.broken) (hw.clear v hv.broken))

/-! Each check moves the point up to which no rule is broken, or reports the rule at that point. -/

theorem Clear.succ {n : Nat} (h : c.Clear settings now n)
    (hn : ∀ v, v.rank = n → ¬ c.Breaks settings now v) : c.Clear settings now (n + 1) := by
  intro v hv
  exact Nat.lt_of_le_of_ne (h v hv) fun hrank => hn v hrank.symm hv

def Settles {α : Type} (settings : Settings) (now : Instant) (c : Claims)
    (x : Except Violation α) (n : Nat) : Prop :=
  (∃ a, x = .ok a ∧ c.Clear settings now n) ∨ ∃ v, x = .error v ∧ c.BreaksFirst settings now v

section Checks

theorem Settles.bind {α β : Type} {x : Except Violation α} {k : α → Except Violation β} {n m : Nat}
    (hx : c.Settles settings now x n)
    (hk : ∀ a, x = .ok a → c.Clear settings now n → c.Settles settings now (k a) m) :
    c.Settles settings now (x >>= k) m := by
  rcases hx with ⟨a, hx, hclear⟩ | ⟨v, hx, hv⟩
  · have h := hk a hx hclear
    rwa [← show (x >>= k) = k a by rw [hx]; rfl] at h
  · exact .inr ⟨v, by rw [hx]; rfl, hv⟩

theorem settles_checkAudience (settings : Settings) (now : Instant) (c : Claims) :
    c.Settles settings now (checkAudience settings c) 2 := by
  have hzero : c.Clear settings now 0 := fun _ _ => Nat.zero_le _
  unfold checkAudience
  by_cases hempty : c.audience = []
  · exact .inr ⟨.noAudience, if_pos (List.isEmpty_iff.mpr hempty), hempty, hzero⟩
  have hone : c.Clear settings now 1 := hzero.succ fun v hv hbroken => by
    cases v with
    | noAudience => exact hempty hbroken
    | _ => simp [Violation.rank] at hv
  rw [if_neg (by simpa using hempty)]
  by_cases hnamed : settings.tokenUrl ∈ c.audience
  · refine .inl ⟨(), if_pos (by simpa using hnamed), hone.succ fun v hv hbroken => ?_⟩
    cases v with
    | otherAudience tokenUrl => exact hbroken.2 (hbroken.1 ▸ hnamed)
    | _ => simp [Violation.rank] at hv
  · exact .inr ⟨.otherAudience settings.tokenUrl, if_neg (by simpa using hnamed), ⟨rfl, hnamed⟩,
      hone⟩

theorem settles_checkDates (h : c.Clear settings now 2) :
    c.Settles settings now (checkDates c now) 5 := by
  unfold checkDates
  cases hexpires : c.expiresAt with
  | none => exact .inr ⟨.noExpiry, rfl, hexpires, h⟩
  | some expiry =>
    dsimp only
    have hthree : c.Clear settings now 3 := h.succ fun v hv hbroken => by
      cases v with
      | noExpiry => cases hexpires.symm.trans hbroken
      | _ => simp [Violation.rank] at hv
    by_cases hle : expiry.micros ≤ now.micros
    · rw [if_pos hle]
      exact .inr ⟨.expired, rfl, ⟨expiry, hexpires, hle⟩, hthree⟩
    rw [if_neg hle]
    have hfour : c.Clear settings now 4 := hthree.succ fun v hv hbroken => by
      cases v with
      | expired =>
        obtain ⟨expiry', he, hle'⟩ := hbroken
        rw [← Option.some.inj (hexpires.symm.trans he)] at hle'
        exact hle hle'
      | _ => simp [Violation.rank] at hv
    cases hbefore : c.notBefore with
    | none =>
      refine .inl ⟨expiry, rfl, hfour.succ fun v hv hbroken => ?_⟩
      cases v with
      | notYet since => cases hbefore.symm.trans hbroken.1
      | _ => simp [Violation.rank] at hv
    | some notBefore =>
      dsimp only
      by_cases hyet : now.micros ≤ notBefore.micros
      · rw [if_pos hyet]
        exact .inr ⟨.notYet notBefore, rfl, ⟨hbefore, hyet⟩, hfour⟩
      rw [if_neg hyet]
      refine .inl ⟨expiry, rfl, hfour.succ fun v hv hbroken => ?_⟩
      cases v with
      | notYet since =>
        rw [← Option.some.inj (hbefore.symm.trans hbroken.1)] at hbroken
        exact hyet hbroken.2
      | _ => simp [Violation.rank] at hv

theorem settles_checkLifetime (h : c.Clear settings now 5) (hexpires : c.expiresAt = some expiry) :
    c.Settles settings now (checkLifetime settings c now expiry) 7 := by
  unfold checkLifetime Instant.since
  dsimp only
  by_cases hnone : settings.issuedAtOptional = false ∧ c.issuedAt = none
  · rw [if_pos (by simpa using hnone)]
    exact .inr ⟨.noIssueDate, rfl, hnone, h⟩
  rw [if_neg (by simpa using hnone)]
  have hsix : c.Clear settings now 6 := h.succ fun v hv hbroken => by
    cases v with
    | noIssueDate => exact hnone hbroken
    | _ => simp [Violation.rank] at hv
  by_cases hlong : settings.maxDuration.micros < expiry.micros - (c.issuedAt.getD now).micros
  · rw [if_pos hlong]
    exact .inr ⟨.tooLong expiry (c.issuedAt.getD now), rfl, ⟨hexpires, rfl, hlong⟩, hsix⟩
  rw [if_neg hlong]
  refine .inl ⟨(), rfl, hsix.succ fun v hv hbroken => ?_⟩
  cases v with
  | tooLong expiry' issuedAt =>
    obtain ⟨he, rfl, hlong'⟩ := hbroken
    rw [← Option.some.inj (hexpires.symm.trans he)] at hlong'
    exact hlong hlong'
  | _ => simp [Violation.rank] at hv

theorem settles_checkJwtId (h : c.Clear settings now 7) :
    c.Settles settings now (checkJwtId settings c) 8 := by
  unfold checkJwtId
  by_cases hnone : settings.jwtIdOptional = false ∧ c.jwtId = []
  · rw [if_pos (by simpa using hnone)]
    exact .inr ⟨.noJwtId, rfl, hnone, h⟩
  · rw [if_neg (by simpa using hnone)]
    refine .inl ⟨(), rfl, h.succ fun v hv hbroken => ?_⟩
    cases v with
    | noJwtId => exact hnone hbroken
    | _ => simp [Violation.rank] at hv

end Checks

theorem settles_checkStateless (settings : Settings) (now : Instant) (c : Claims) :
    c.Settles settings now (checkStateless settings c now) 8 := by
  refine (settles_checkAudience settings now c).bind fun _ _ h => ?_
  refine (settles_checkDates h).bind fun expiry hdates h => ?_
  refine (settles_checkLifetime h (checkDates_eq_ok.mp hdates).1).bind fun _ _ h => ?_
  exact (settles_checkJwtId h).bind fun _ _ h => .inl ⟨expiry, rfl, h⟩

theorem rank_lt (v : Violation) : v.rank < 8 := by
  cases v <;> simp [Violation.rank]

theorem Keep.not_breaks (h : c.Keep settings now expiry) (v : Violation) :
    ¬ c.Breaks settings now v := by
  intro hv
  have hok := checkStateless_eq_ok.mpr h
  rcases settles_checkStateless settings now c with ⟨_, -, hclear⟩ | ⟨w, herror, -⟩
  · exact Nat.not_lt.mpr (hclear v hv) (rank_lt v)
  · cases hok.symm.trans herror

theorem checkStateless_eq_error :
    checkStateless settings c now = .error v ↔ c.BreaksFirst settings now v := by
  rcases settles_checkStateless settings now c with ⟨expiry, hok, -⟩ | ⟨w, herror, hw⟩
  · rw [hok]
    refine ⟨nofun, fun hv => ?_⟩
    exact absurd hv.broken ((checkStateless_eq_ok.mp hok).not_breaks v)
  · rw [herror, Except.error.injEq]
    exact ⟨fun h => h ▸ hw, fun hv => hw.unique hv⟩

theorem exists_keep_iff :
    (∃ expiry, c.Keep settings now expiry) ↔ ∀ v, ¬ c.Breaks settings now v := by
  constructor
  · rintro ⟨expiry, h⟩
    exact h.not_breaks
  · intro hnone
    rcases settles_checkStateless settings now c with ⟨expiry, hok, -⟩ | ⟨v, -, hv⟩
    · exact ⟨expiry, checkStateless_eq_ok.mp hok⟩
    · exact absurd hv.broken (hnone v)

end Claims

namespace Site

variable {s : Site} {jti : Text}

def Unused (s : Site) (jti : Text) : Prop :=
  s.Live ∧ ∃ used, s.usedAt jti = .ok used ∧ used.isTruthy = false

theorem Calm.unused_iff (h : s.Calm) : s.Unused jti ↔ ¬ s.records.Holds s.now jti := by
  obtain ⟨used, hused, s', hanswer, -⟩ := Act.answers_isUsed h jti
  have hat : s.usedAt jti = .ok (.bool used) := by
    rw [← Act.fst_outcome_isUsed, hanswer]
  unfold Unused
  rw [hat, ← hused]
  cases used <;> simp [h.live, Json.isTruthy]

end Site

theorem SingleUse.outcome_isUsed {s : Site} (hlive : s.Live) (jti : Text) :
    ∃ s', (isUsed jti).outcome s =
        ((s.usedAt jti).mapError (StorageCall.isUsed jti).raises, s') ∧
      s'.calls = s.calls ++ [.isUsed jti] := by
  obtain ⟨records, hsite⟩ := Act.snd_outcome_isUsed s jti
  obtain ⟨uptime, context, hafter⟩ := s.after_eq (.isUsed jti)
  have hcalls : ((Act.isUsed jti).outcome s).2.calls = s.calls ++ [.isUsed jti] := by
    rw [hsite, hafter]
    rfl
  have hanswer := Act.fst_outcome_isUsed s jti
  rw [isUsed_eq, Act.outcome_bind, Act.gives_checkContext hlive]
  dsimp only
  rw [Act.outcome_tryCatch, ← hanswer]
  rcases h : (Act.isUsed jti).outcome s with ⟨(q | e) | used, s₁⟩
  · exact ⟨s₁, rfl, by rwa [h] at hcalls⟩
  · exact ⟨{ s₁ with log := _ }, rfl, by rwa [h] at hcalls⟩
  · exact ⟨s₁, rfl, by rwa [h] at hcalls⟩

namespace Claims
open Act

variable {settings : Settings} {c : Claims} {now expiry : Instant} {s : Site}

/-- What validation makes of claims at a site, and with which calls: it reports the first rule that
is broken, and asks the storage about the identifier only of claims that break none. -/
inductive Reports (settings : Settings) (now : Instant) (s : Site) (c : Claims) :
    Except Failure Instant → List StorageCall → Prop
  | broken {v : Violation} : c.BreaksFirst settings now v →
    Reports settings now s c (.error (.refusal v.toRefusal)) []
  | unnamed {expiry : Instant} : (∀ v, ¬ c.Breaks settings now v) → c.expiresAt = some expiry →
    c.jwtId = [] → Reports settings now s c (.ok expiry) []
  | done {q : Refusal} : (∀ v, ¬ c.Breaks settings now v) → c.jwtId ≠ [] → ¬ s.Live →
    q.kind = .serverError → Reports settings now s c (.error (.refusal q)) []
  | unused {expiry : Instant} : (∀ v, ¬ c.Breaks settings now v) → c.expiresAt = some expiry →
    c.jwtId ≠ [] → s.Unused c.jwtId → Reports settings now s c (.ok expiry) [.isUsed c.jwtId]
  | used {used : Json} : (∀ v, ¬ c.Breaks settings now v) → c.jwtId ≠ [] → s.Live →
    s.usedAt c.jwtId = .ok used → used.isTruthy = true →
    Reports settings now s c (.error (.refuse .replayed)) [.isUsed c.jwtId]
  | failed {f : Failure} : (∀ v, ¬ c.Breaks settings now v) → c.jwtId ≠ [] → s.Live →
    s.usedAt c.jwtId = .error f →
    Reports settings now s c (.error ((StorageCall.isUsed c.jwtId).raises f)) [.isUsed c.jwtId]

theorem reports_validate (settings : Settings) (now : Instant) (s : Site) (c : Claims) :
    ∃ made, c.Reports settings now s ((validate settings c now).outcome s).1 made ∧
      ((validate settings c now).outcome s).2.calls = s.calls ++ made := by
  unfold validate
  rw [outcome_bind, outcome_refusing]
  cases hchecked : checkStateless settings c now with
  | error v => exact ⟨[], .broken (checkStateless_eq_error.mp hchecked), (List.append_nil _).symm⟩
  | ok expiry =>
    have hkeep := checkStateless_eq_ok.mp hchecked
    have hnone := hkeep.not_breaks
    dsimp only [Except.mapError]
    by_cases hjti : c.jwtId = []
    · rw [hjti]
      exact ⟨[], .unnamed hnone hkeep.expires hjti, (List.append_nil _).symm⟩
    rw [if_pos (by simpa using hjti), outcome_bind]
    rcases checkContext_cases s with ⟨hlive, hcontext⟩ | ⟨hdone, q, hq, hcontext⟩
    · rw [hcontext]
      dsimp only
      obtain ⟨s', hlookUp, hcalls⟩ := SingleUse.outcome_isUsed hlive c.jwtId
      rw [outcome_bind, hlookUp]
      refine ⟨[.isUsed c.jwtId], ?_⟩
      cases hanswer : s.usedAt c.jwtId with
      | error f => exact ⟨.failed hnone hjti hlive hanswer, hcalls⟩
      | ok used =>
        dsimp only [Except.mapError]
        cases hused : used.isTruthy with
        | true => exact ⟨.used hnone hjti hlive hanswer hused, hcalls⟩
        | false => exact ⟨.unused hnone hkeep.expires hjti ⟨hlive, used, hanswer, hused⟩, hcalls⟩
    · rw [hcontext]
      exact ⟨[], .done hnone hjti hdone hq, (List.append_nil _).symm⟩

variable {r : Except Failure Instant} {made : List StorageCall}

theorem Reports.consults_iff (h : c.Reports settings now s r made) :
    made = [.isUsed c.jwtId] ↔ (∀ v, ¬ c.Breaks settings now v) ∧ c.jwtId ≠ [] ∧ s.Live := by
  cases h with
  | broken hv => exact ⟨nofun, fun h => absurd hv.broken (h.1 _)⟩
  | unnamed hnone hexpires hjti => exact ⟨nofun, fun h => absurd hjti h.2.1⟩
  | done hnone hjti hdone hq => exact ⟨nofun, fun h => absurd h.2.2 hdone⟩
  | unused hnone hexpires hjti hunused => exact ⟨fun _ => ⟨hnone, hjti, hunused.1⟩, fun _ => rfl⟩
  | used hnone hjti hlive => exact ⟨fun _ => ⟨hnone, hjti, hlive⟩, fun _ => rfl⟩
  | failed hnone hjti hlive => exact ⟨fun _ => ⟨hnone, hjti, hlive⟩, fun _ => rfl⟩

theorem Reports.accepts_iff (h : c.Reports settings now s r made) : (∃ expiry, r = .ok expiry) ↔
    (∀ v, ¬ c.Breaks settings now v) ∧ (c.jwtId = [] ∨ s.Unused c.jwtId) := by
  cases h with
  | broken hv => exact ⟨nofun, fun h => absurd hv.broken (h.1 _)⟩
  | @unnamed expiry hnone hexpires hjti =>
    exact ⟨fun _ => ⟨hnone, .inl hjti⟩, fun _ => ⟨expiry, rfl⟩⟩
  | done hnone hjti hdone hq => exact ⟨nofun, fun h => absurd (h.2.resolve_left hjti).1 hdone⟩
  | @unused expiry hnone hexpires hjti hunused =>
    exact ⟨fun _ => ⟨hnone, .inr hunused⟩, fun _ => ⟨expiry, rfl⟩⟩
  | used hnone hjti hlive hanswer hused =>
    refine ⟨nofun, fun h => ?_⟩
    obtain ⟨-, answer, hanswer', hfalse⟩ := h.2.resolve_left hjti
    rw [← Except.ok.inj (hanswer.symm.trans hanswer'), hused] at hfalse
    cases hfalse
  | failed hnone hjti hlive hanswer =>
    refine ⟨nofun, fun h => ?_⟩
    obtain ⟨-, answer, hanswer', -⟩ := h.2.resolve_left hjti
    cases hanswer.symm.trans hanswer'

structure Timeless (settings : Settings) (c : Claims) (expiry : Instant) : Prop where
  audience : settings.tokenUrl ∈ c.audience
  expires : c.expiresAt = some expiry
  issued : settings.issuedAtOptional = true ∨ c.issuedAt.isSome = true
  brief : ∀ issuedAt, c.issuedAt = some issuedAt →
    expiry.micros - issuedAt.micros ≤ settings.maxDuration.micros
  named : settings.jwtIdOptional = true ∨ c.jwtId ≠ []

def window (settings : Settings) (c : Claims) (expiry : Instant) : Set Instant :=
  {now | (∀ notBefore, c.notBefore = some notBefore → notBefore.micros < now.micros) ∧
    now.micros < expiry.micros ∧
    (c.issuedAt = none → expiry.micros - settings.maxDuration.micros ≤ now.micros)}

theorem keep_iff_mem_window (h : c.Timeless settings expiry) :
    c.Keep settings now expiry ↔ now ∈ c.window settings expiry := by
  constructor
  · intro hkeep
    refine ⟨hkeep.begun, hkeep.unexpired, fun hnone => ?_⟩
    have hbrief := hkeep.brief
    rw [hnone, Option.getD_none] at hbrief
    omega
  · rintro ⟨hbegun, hunexpired, hlate⟩
    refine ⟨h.audience, h.expires, hunexpired, hbegun, h.issued, ?_, h.named⟩
    cases hissued : c.issuedAt with
    | some issuedAt => exact h.brief issuedAt hissued
    | none =>
      have := hlate hissued
      rw [Option.getD_none]
      omega

/-- Validation reports the first rule that is broken and asks the storage only about the identifier
of claims that break none. So claims that keep the rules in which the clock has no part, and whose
identifier is unused, are accepted exactly in the window after their `nbf` and before their expiry,
which without an `iat` opens when the expiry comes within the longest lifetime. At a calm site an
identifier is unused as long as no record of it is live. -/
theorem first_violation_reported (settings : Settings) (c : Claims) :
    (∀ now s, ∃ made, c.Reports settings now s ((validate settings c now).outcome s).1 made ∧
      ((validate settings c now).outcome s).2.calls = s.calls ++ made ∧
      (made = [.isUsed c.jwtId] ↔
        (∀ v, ¬ c.Breaks settings now v) ∧ c.jwtId ≠ [] ∧ s.Live)) ∧
    (∀ expiry, c.Timeless settings expiry → ∀ sites : Instant → Site,
      (∀ now, c.jwtId = [] ∨ (sites now).Unused c.jwtId) →
        {now | ∃ e, ((validate settings c now).outcome (sites now)).1 = .ok e} =
          c.window settings expiry) ∧
    ∀ s : Site, s.Calm → ∀ jti, s.Unused jti ↔ ¬ s.records.Holds s.now jti := by
  refine ⟨fun now s => ?_, fun expiry h sites hunused => ?_, fun s hs jti => hs.unused_iff⟩
  · obtain ⟨made, hreports, hcalls⟩ := reports_validate settings now s c
    exact ⟨made, hreports, hcalls, hreports.consults_iff⟩
  · ext now
    obtain ⟨made, hreports, -⟩ := reports_validate settings now (sites now) c
    have hkeep : (∀ v, ¬ c.Breaks settings now v) ↔ now ∈ c.window settings expiry := by
      rw [← keep_iff_mem_window h, ← exists_keep_iff]
      constructor
      · rintro ⟨expiry', hkeep⟩
        rwa [Option.some.inj (h.expires.symm.trans hkeep.expires)]
      · exact fun hkeep => ⟨expiry, hkeep⟩
    rw [Set.mem_ofPred_eq, hreports.accepts_iff, hkeep]
    exact and_iff_left (hunused now)

end Claims

namespace Specimen

def undatedSettings : Settings :=
  { tokenUrl := "as", maxDuration := .ofSeconds 8, issuedAtOptional := true }

def undated : Claims :=
  { issuer := "i", subject := "s", audience := ["as"], notBefore := some ⟨5000000⟩,
    expiresAt := some ⟨15000000⟩, jwtId := "j" }

theorem undated_accepted_in_window :
    undated.Timeless undatedSettings ⟨15000000⟩ ∧
      (∀ now : Instant, ({ now } : Site).Unused undated.jwtId) ∧
      {now | ∃ e, ((Claims.validate undatedSettings undated now).outcome { now }).1 = .ok e} =
        {now | 7000000 ≤ now.micros ∧ now.micros < 15000000} := by
  have htimeless : undated.Timeless undatedSettings ⟨15000000⟩ :=
    ⟨by decide, rfl, .inl rfl, nofun, .inr (by decide)⟩
  have hunused (now : Instant) : ({ now } : Site).Unused undated.jwtId :=
    ⟨nofun, .bool false, rfl, rfl⟩
  have hwindow := (Claims.first_violation_reported undatedSettings undated).2.1 _ htimeless
    (fun now => { now }) fun now => .inr (hunused now)
  refine ⟨htimeless, hunused, hwindow.trans ?_⟩
  ext now
  simp only [Claims.window, undated, undatedSettings, Span.ofSeconds, Option.some.injEq,
    forall_eq', forall_const, Set.mem_ofPred_eq]
  omega

end Specimen
end AssertionGrant
