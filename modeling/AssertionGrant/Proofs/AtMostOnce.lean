import AssertionGrant.Proofs.Retention

/-! Runs of one endpoint: requests, calls of the guard in front of the replay records and time that
passes, in any order. Within a run an assertion with an identifier is accepted at most once, and
until it expires no assertion with that identifier is accepted again. -/

namespace AssertionGrant

inductive Event where
  | request (r : AccessRequest) (context : Option Context)
  | lookUp (jti : Text) (context : Option Context)
  | record (jti : Text) (expiry : Instant) (context : Option Context)
  | pass (micros : Nat) (uptime : Binary64)
  | rekey (keys : KeyStore) (fields : List HashField)

structure Acceptance where
  now : Instant
  request : AccessRequest

namespace Grant

theorem kept_context {s : Site} (hs : s.Sound) (context : Option Context) :
    Site.Kept s { s with context } := .of_eq hs (Int.le_refl _) rfl rfl rfl

section Runs

variable [Json.Nesting]

def happen (g : Grant) (s : Site) : Event → Site
  | .request r context => (g.handled r { s with context }).2
  | .lookUp jti context => ((SingleUse.isUsed jti).outcome { s with context }).2
  | .record jti expiry context => ((SingleUse.mark jti expiry).outcome { s with context }).2
  | .pass micros uptime => { s with now := ⟨s.now.micros + micros⟩, uptime }
  | .rekey keys fields => { s with keys, cache := { s.cache with fields } }

def acceptance? (g : Grant) (s : Site) : Event → Option Acceptance
  | .request r context =>
    match (g.handled r { s with context }).1.result with
    | .ok () => some ⟨s.now, r⟩
    | .error _ => none
  | _ => none

def acceptances (g : Grant) : Site → List Event → List Acceptance
  | _, [] => []
  | s, event :: rest => (g.acceptance? s event).toList ++ g.acceptances (g.happen s event) rest

variable {g : Grant} {s : Site} {jti : Text} {end_ : Instant} {a : Acceptance}

theorem kept_happen (hs : s.Sound) (g : Grant) (event : Event) :
    Site.Kept s (g.happen s event) := by
  cases event with
  | request r context =>
    have hc := kept_context hs context
    exact hc.trans (kept_handled hc.sound g r)
  | lookUp jti context =>
    have hc := kept_context hs context
    exact hc.trans ((SingleUse.quiet_isUsed jti).kept hc.sound)
  | record jti expiry context =>
    have hc := kept_context hs context
    exact hc.trans (SingleUse.kept_mark hc.sound jti expiry)
  | pass micros uptime => exact .of_eq hs (by simp only [happen]; omega) rfl rfl rfl
  | rekey keys fields => exact .of_eq hs (Int.le_refl _) rfl rfl rfl

theorem of_acceptance? {event : Event} (hs : s.Sound) (h : g.acceptance? s event = some a) :
    a.now = s.now ∧ ∃ c expiry, a.request.claimed? = some c ∧ c.expiresAt = some expiry ∧
      s.now.micros < expiry.micros ∧
      (c.jwtId ≠ [] → ¬ s.records.Holds s.now c.jwtId ∧
        (g.happen s event).Guards c.jwtId (s.replays.endOf s.now expiry)) := by
  cases event with
  | request r context =>
    unfold acceptance? at h
    dsimp only at h
    split at h
    · next hr =>
      obtain rfl := Option.some.inj h
      obtain ⟨c, expiry, hc, hchecked, hj⟩ := of_accepted (kept_context hs context).sound hr
      have hkeep := Claims.checkStateless_eq_ok.mp hchecked
      exact ⟨rfl, c, expiry, hc, hkeep.expires, hkeep.unexpired, hj⟩
    · cases h
  | _ => cases h

theorem jwtId_ne_of_guards {events : List Event} (hs : s.Sound) (hg : s.Guards jti end_)
    (ha : a ∈ g.acceptances s events) (hn : a.now.micros < end_.micros) {c : Claims}
    (hc : a.request.claimed? = some c) (hj : c.jwtId ≠ []) : c.jwtId ≠ jti := by
  induction events generalizing s with
  | nil => cases ha
  | cons event rest ih =>
    have hk := kept_happen hs g event
    rcases List.mem_append.mp ha with ha | ha
    · obtain ⟨hnow, c', expiry, hc', -, -, hrecord⟩ := of_acceptance? hs (Option.mem_toList.mp ha)
      obtain rfl : c' = c := Option.some.inj (hc'.symm.trans hc)
      intro e
      rw [hnow] at hn
      exact (hrecord hj).1 (e ▸ hg.holds hn)
    · exact ih hk.sound (hk.guards hg) ha

theorem claimed_of_mem_acceptances {events : List Event} (hs : s.Sound)
    (ha : a ∈ g.acceptances s events) :
    ∃ c expiry, a.request.claimed? = some c ∧ c.expiresAt = some expiry ∧
      a.now.micros < expiry.micros := by
  induction events generalizing s with
  | nil => cases ha
  | cons event rest ih =>
    rcases List.mem_append.mp ha with ha | ha
    · obtain ⟨hnow, c, expiry, hc, he, hlt, -⟩ := of_acceptance? hs (Option.mem_toList.mp ha)
      rw [← hnow] at hlt
      exact ⟨c, expiry, hc, he, hlt⟩
    · exact ih (kept_happen hs g event).sound ha

/-- Of two acceptances the later one bears another identifier, unless the first has expired by
then or its record may be forgotten too soon. -/
def Apart (store : ReplayStore) (a b : Acceptance) : Prop :=
  ∀ c expiry c', a.request.claimed? = some c → c.expiresAt = some expiry → c.jwtId ≠ [] →
    store.KeepsUntil a.now expiry → b.request.claimed? = some c' →
    b.now.micros < expiry.micros → c'.jwtId ≠ c.jwtId

theorem Apart.congr {store store' : ReplayStore} {b : Acceptance} (h : Apart store' a b)
    (e : store'.threshold? = store.threshold?) : Apart store a b :=
  fun c expiry c' hc he hj hkeeps =>
    h c expiry c' hc he hj ((ReplayStore.keepsUntil_congr e _ _).mpr hkeeps)

theorem pairwise_apart (hs : s.Sound) (g : Grant) (events : List Event) :
    (g.acceptances s events).Pairwise (Apart s.replays) := by
  induction events generalizing s with
  | nil => exact List.Pairwise.nil
  | cons event rest ih =>
    have hk := kept_happen hs g event
    have hrest := (ih hk.sound).imp fun h => h.congr hk.threshold
    refine List.pairwise_append.mpr ⟨?_, hrest, ?_⟩
    · cases g.acceptance? s event with
      | none => exact List.Pairwise.nil
      | some a => exact List.pairwise_singleton _ a
    -- The head has left a record that is live until the expiry of its claims, and what comes later
    -- runs at sites that keep it.
    · intro a ha b hb c expiry c' hc he hj hkeeps hc' hlt
      obtain ⟨hnow, c₀, expiry₀, hc₀, he₀, -, hrecord⟩ :=
        of_acceptance? hs (Option.mem_toList.mp ha)
      obtain rfl : c₀ = c := Option.some.inj (hc₀.symm.trans hc)
      obtain rfl : expiry₀ = expiry := Option.some.inj (he₀.symm.trans he)
      rw [hnow] at hkeeps
      have hend := ReplayStore.le_endOf hkeeps
      intro hsame
      exact jwtId_ne_of_guards hk.sound (hrecord hj).2 hb (by omega) hc' (hsame ▸ hj) hsame

def bears (raw : String) (a : Acceptance) : Bool := a.request.parameter? "assertion" == some raw

theorem claimed_of_bears {raw : String} {c : Claims} (h : bears raw a = true)
    (hc : a.request.claimed? = some c) : Assertion.claimed raw = .ok c := by
  have hp : a.request.parameter? "assertion" = some raw := by simpa [bears] using h
  unfold AccessRequest.claimed? assertionOf at hc
  rw [hp] at hc
  split at hc
  · next raw' hraw =>
    split at hraw
    · cases hraw
    · cases hraw
    · next e =>
      obtain rfl := Except.ok.inj hraw
      obtain rfl := Option.some.inj e
      cases hr : Assertion.claimed raw with
      | error f =>
        rw [hr] at hc
        cases hc
      | ok c' =>
        rw [hr] at hc
        rw [Option.some.inj hc]
  · cases hc

/-- What is accepted has claims that have not expired; until they do, no assertion with their
identifier is accepted again; and an assertion with an identifier is accepted at most once. -/
theorem accepted_at_most_once (hs : s.Sound) (g : Grant) (events : List Event) :
    (∀ a ∈ g.acceptances s events, ∃ c expiry, a.request.claimed? = some c ∧
      c.expiresAt = some expiry ∧ a.now.micros < expiry.micros) ∧
    (g.acceptances s events).Pairwise (Apart s.replays) ∧
    ∀ raw c expiry, Assertion.claimed raw = .ok c → c.expiresAt = some expiry → c.jwtId ≠ [] →
      (∀ a ∈ g.acceptances s events, bears raw a → s.replays.KeepsUntil a.now expiry) →
      ((g.acceptances s events).filter (bears raw)).length ≤ 1 := by
  refine ⟨fun a => claimed_of_mem_acceptances hs, pairwise_apart hs g events, ?_⟩
  intro raw c expiry hc he hj hkeeps
  -- Two acceptances of one text would bear one identifier, but any two are apart.
  refine length_le_one_of_pairwise (((pairwise_apart hs g events).filter _).imp_of_mem ?_)
  intro a b ha hb hapart
  obtain ⟨ha, haraw⟩ := List.mem_filter.mp ha
  obtain ⟨hb, hbraw⟩ := List.mem_filter.mp hb
  obtain ⟨ca, _, hca, -, -⟩ := claimed_of_mem_acceptances hs ha
  obtain ⟨cb, expiry', hcb, he', hlt⟩ := claimed_of_mem_acceptances hs hb
  obtain rfl : c = ca := Except.ok.inj (hc.symm.trans (claimed_of_bears haraw hca))
  obtain rfl : c = cb := Except.ok.inj (hc.symm.trans (claimed_of_bears hbraw hcb))
  obtain rfl : expiry = expiry' := Option.some.inj (he.symm.trans he')
  exact hapart c expiry c hca he hj (hkeeps a ha haraw) hcb hlt rfl

end Runs

open scoped Specimen

theorem specimen_accepted_at_most_once :
    let events : List Event := [.request Specimen.request none, .request Specimen.request none,
      .pass 5000000 .zero, .request Specimen.request none]
    let accepted := Specimen.grant.acceptances Specimen.site events
    accepted.map (·.now) = [⟨0⟩] ∧ accepted.Pairwise (Apart Specimen.site.replays) := by
  intro events accepted
  refine ⟨by decide +kernel, ?_⟩
  exact (accepted_at_most_once Specimen.sound_site Specimen.grant events).2.1

end Grant

end AssertionGrant
