import AssertionGrant.Settings.Environment
import AssertionGrant.Proofs.Itinerary

/-! Assertions that no key can have signed. Settings that pass their check, or come from an
environment, allow no algorithm that signs with a shared secret or not at all. So no key, of any
kind and from any storage, verifies an assertion whose header names such an algorithm, and a request
that brings one ends at the look-up of its key. -/

namespace AssertionGrant

namespace Settings

variable {settings : Settings} {name : Text}

/-- A name of an algorithm under which nothing is accepted: one that signs not at all or with a
shared secret, in letters of any case, or one that is not on the list. -/
def Bars (settings : Settings) (name : Text) : Prop :=
  Text.asciiLower name = "none" ∨ Text.ofString "hs" <+: Text.asciiLower name ∨
    name ∉ settings.algorithms

theorem isSymmetric_of_registered : ∀ p ∈ Algorithm.registry,
    Text.asciiLower p.1 = "none" ∨ Text.ofString "hs" <+: Text.asciiLower p.1 →
      isSymmetric p.1 = true := by decide +kernel

theorem check_eq_ok {settings' : Settings} : settings.check = .ok settings' ↔
    settings = settings' ∧ (Text.trim settings.tokenUrl).isEmpty = false ∧
      0 < settings.maxDuration.micros ∧ 0 < settings.lifespan.micros ∧ settings.algorithms ≠ [] ∧
      ∀ name ∈ settings.algorithms, isSymmetric name = false := by
  have hany : settings.algorithms.any isSymmetric = false ↔
      ∀ name ∈ settings.algorithms, isSymmetric name = false := by
    rw [List.any_eq_false]
    simp only [Bool.not_eq_true]
  unfold check
  rw [← hany, ← List.isEmpty_eq_false_iff]
  split
  · next h => simp only [reduceCtorEq, h, false_and, and_false]
  split
  · next h => simp only [reduceCtorEq, false_iff, not_and]; omega
  split
  · next h => simp only [reduceCtorEq, false_iff, not_and]; omega
  split
  · next h => simp only [reduceCtorEq, h, false_and, and_false]
  split
  · next h => simp only [reduceCtorEq, h, and_false]
  · next hurl hmax hlife hnone hsymmetric =>
    rw [Except.ok.injEq]
    exact ⟨fun e => ⟨e, by simpa using hurl, by omega, by omega, by simpa using hnone,
      by simpa using hsymmetric⟩, And.left⟩

theorem check_of_ofEnvironment {lead : Text} {env : Environment}
    (h : ofEnvironment lead env = .ok settings) : settings.check = .ok settings := by
  have hchecked {p : Settings} (hp : p.check.mapError EnvironmentFault.settings = .ok settings) :
      settings.check = .ok settings := by
    have hp := mapError_eq_ok.mp hp
    obtain ⟨rfl, -⟩ := check_eq_ok.mp hp
    exact hp
  unfold ofEnvironment at h
  dsimp only at h
  split at h
  · cases h
  · obtain ⟨_, -, h⟩ := bind_eq_ok.mp h
    obtain ⟨_, -, h⟩ := bind_eq_ok.mp h
    exact hchecked h

theorem Bars.unknown (h : settings.check = .ok settings) (hbars : settings.Bars name)
    (hname : name ∈ settings.algorithms) : Algorithm.ofName? name = none := by
  by_contra hknown
  obtain ⟨alg, halg⟩ := Option.ne_none_iff_exists'.mp hknown
  obtain ⟨p, hp, -⟩ := Option.map_eq_some_iff.mp halg
  have hmem := List.mem_of_find?_eq_some hp
  have hp : p.1 = name := by simpa using List.find?_some hp
  have hsymmetric : isSymmetric name = true := by
    rcases hbars with hnone | hkeyed | hbarred
    · exact hp ▸ isSymmetric_of_registered p hmem (.inl (hp ▸ hnone))
    · exact hp ▸ isSymmetric_of_registered p hmem (.inr (hp ▸ hkeyed))
    · exact absurd hname hbarred
  obtain ⟨-, -, -, -, -, hasymmetric⟩ := check_eq_ok.mp h
  rw [hasymmetric name hname] at hsymmetric
  cases hsymmetric

end Settings

section Refusals
open Act

def Compact.SoughtOnly (t : Compact) (s s' : Site) : Prop :=
  ∃ issuer subject made, made <+: [Signer.callFor t issuer subject] ∧ s'.calls = s.calls ++ made

theorem Compact.soughtOnly_of_eq (t : Compact) {s s' : Site} (h : s'.calls = s.calls) :
    t.SoughtOnly s s' := ⟨"", "", [], List.nil_prefix, by rw [h, List.append_nil]⟩

variable [Json.Nesting] {settings : Settings} {t : Compact}

/-- No key whatever has signed a token whose header names an algorithm that is barred, or none. -/
theorem Compact.not_signedBy (hcheck : settings.check = .ok settings)
    (hbars : ∀ name, t.header.get? "alg" = some (.str name) → settings.Bars name) (key : Jwk) :
    ¬ t.SignedBy settings.algorithms key := by
  rintro ⟨name, alg, hname, hallowed, hknown, -⟩
  rw [(hbars name hname).unknown hcheck hallowed] at hknown
  cases hknown

theorem Signer.find_not_gives {allowed : List Text}
    (hunsigned : ∀ key, ¬ t.SignedBy allowed key) {issuer subject : Text} {s s' : Site}
    {found : Jwk × Fields} : ¬ (find t allowed issuer subject).Gives s found s' := by
  intro h
  obtain ⟨key, payload⟩ := found
  exact hunsigned key (Assertion.verify_eq_ok.mp (verify_of_find h)).1

namespace Grant

variable {g : Grant} {r : AccessRequest} {s s' : Site} {raw : String} {f : Failure}

theorem verifiedClaims_not_gives (hparse : Compact.parse raw = .ok t)
    (hunsigned : ∀ key, ¬ t.SignedBy g.settings.algorithms key) {found : Claims × Json × Instant} :
    ¬ (g.verifiedClaims raw).Gives s found s' := by
  intro h
  obtain ⟨t', s₁, h₁, h⟩ := gives_bind.mp h
  obtain ⟨hparse', rfl⟩ := gives_refusing.mp h₁
  obtain rfl := Except.ok.inj (hparse.symm.trans (mapError_eq_ok.mp hparse'))
  obtain ⟨⟨issuer, subject⟩, s₂, h₂, h⟩ := gives_bind.mp h
  obtain ⟨found', s₃, h₃, -⟩ := gives_bind.mp h
  exact Signer.find_not_gives hunsigned h₃

theorem soughtOnly_of_unsigned (hparse : Compact.parse raw = .ok t)
    (hunsigned : ∀ key, ¬ t.SignedBy g.settings.algorithms key)
    (h : (g.verifiedClaims raw).Fails s f s') : t.SoughtOnly s s' := by
  rcases fails_bind.mp h with h | ⟨t', s₁, h₁, h⟩
  · exact t.soughtOnly_of_eq ((silent_refusing _).of_fails h)
  obtain ⟨hparse', rfl⟩ := gives_refusing.mp h₁
  obtain rfl := Except.ok.inj (hparse.symm.trans (mapError_eq_ok.mp hparse'))
  rcases fails_bind.mp h with h | ⟨⟨issuer, subject⟩, s₂, h₂, h⟩
  · exact t.soughtOnly_of_eq ((silent_refusing _).of_fails h)
  obtain ⟨-, rfl⟩ := gives_refusing.mp h₂
  rcases fails_bind.mp h with h | ⟨found, s₃, h₃, -⟩
  · obtain ⟨made, hmade, e⟩ := Signer.makes_find.fails h
    exact ⟨issuer, subject, made, hmade, e⟩
  · exact absurd h₃ (Signer.find_not_gives hunsigned)

theorem clear_of_unsigned (hraw : r.parameter? "assertion" = some raw)
    (hparse : Compact.parse raw = .ok t)
    (hunsigned : ∀ key, ¬ t.SignedBy g.settings.algorithms key) (s : Site) :
    ∃ f s', (g.clear r).Fails s f s' ∧ t.SoughtOnly s s' := by
  have hassertion {raw' : String} (h : assertionOf r = .ok raw') : raw' = raw := by
    have hraw' := (assertionOf_eq_ok.mp h).1
    exact Option.some.inj (hraw'.symm.trans hraw)
  rcases (g.clear r).gives_or_fails s with ⟨c, s', h⟩ | ⟨f, s', h⟩
  · obtain ⟨_, s₁, h₁, h⟩ := gives_bind.mp h
    obtain ⟨raw', s₂, h₂, h⟩ := gives_bind.mp h
    obtain ⟨hraw', rfl⟩ := gives_orFail.mp h₂
    obtain rfl := hassertion hraw'
    obtain ⟨found, s₃, h₃, -⟩ := gives_bind.mp h
    exact absurd h₃ (verifiedClaims_not_gives hparse hunsigned)
  · refine ⟨f, s', h, ?_⟩
    rcases fails_bind.mp h with h | ⟨_, s₁, h₁, h⟩
    · exact t.soughtOnly_of_eq ((silent_orFail _).of_fails h)
    obtain ⟨-, rfl⟩ := gives_orFail.mp h₁
    rcases fails_bind.mp h with h | ⟨raw', s₂, h₂, h⟩
    · exact t.soughtOnly_of_eq ((silent_orFail _).of_fails h)
    obtain ⟨hraw', rfl⟩ := gives_orFail.mp h₂
    obtain rfl := hassertion hraw'
    rcases fails_bind.mp h with h | ⟨found, s₃, h₃, -⟩
    · exact soughtOnly_of_unsigned hparse hunsigned h
    · exact absurd h₃ (verifiedClaims_not_gives hparse hunsigned)

/-- Under settings that pass their check or come from an environment, an assertion whose header
names a barred algorithm, or none, is accepted at no site. The request and the live records stay as
they were, and no call is made but one for a key. -/
theorem barred_refused (hsettings : g.settings.check = .ok g.settings ∨
      ∃ lead env, Settings.ofEnvironment lead env = .ok g.settings)
    (hraw : r.parameter? "assertion" = some raw) (hparse : Compact.parse raw = .ok t)
    (hbars : ∀ name, t.header.get? "alg" = some (.str name) → g.settings.Bars name) (s : Site) :
    (∃ f, (g.handled r s).1 = ⟨r, .error f⟩) ∧ Site.Untouched s (g.handled r s).2 ∧
      t.SoughtOnly s (g.handled r s).2 := by
  have hcheck : g.settings.check = .ok g.settings := by
    rcases hsettings with h | ⟨lead, env, h⟩
    · exact h
    · exact Settings.check_of_ofEnvironment h
  have hunsigned := Compact.not_signedBy hcheck hbars
  obtain ⟨f, s', hfails, hsought⟩ := clear_of_unsigned hraw hparse hunsigned s
  have hcalls : (g.handled r s).2.calls = s'.calls := by
    rw [calls_handled, hfails]
  have hsought : t.SoughtOnly s (g.handled r s).2 := by
    unfold Compact.SoughtOnly
    rw [hcalls]
    exact hsought
  rcases handled_cases g r s with ⟨f', s₁, -, e, huntouched⟩ | ⟨c, s₁, log, hgives, -⟩
  · exact ⟨⟨f', e⟩, huntouched, hsought⟩
  · exact absurd hfails hgives.not_fails

end Grant
end Refusals

namespace Specimen

def keyedRaw : String :=
  "eyJhbGciOiJIUzI1NiJ9.eyJpc3MiOiJpIiwic3ViIjoicyIsImF1ZCI6ImFzIiwiZXhwIjo1LCJqdGkiOiJqIn0.AAAA"

def keyedRequest : AccessRequest := { request with form := [("assertion", keyedRaw)] }

theorem keyedRequest_refused :
    (∃ f, (grant.handled keyedRequest site).1 = ⟨keyedRequest, .error f⟩) ∧
      Site.Untouched site (grant.handled keyedRequest site).2 := by
  have hsettings : grant.settings.check = .ok grant.settings := by
    refine Settings.check_eq_ok.mpr ⟨rfl, ?_, ?_, ?_, ?_, ?_⟩ <;> decide +kernel
  have hheader : (match Compact.parse keyedRaw with
      | .ok t => Jwk.isText (t.header.get? "alg") "HS256"
      | .error _ => false) = true := by decide +kernel
  cases hparse : Compact.parse keyedRaw with
  | error f =>
    rw [hparse] at hheader
    cases hheader
  | ok t =>
    rw [hparse] at hheader
    have hbars : ∀ name, t.header.get? "alg" = some (.str name) → grant.settings.Bars name := by
      intro name hname
      dsimp only at hheader
      rw [hname] at hheader
      have hname : name = "HS256" := by simpa [Jwk.isText] using hheader
      rw [hname]
      exact .inr (.inl (by decide +kernel))
    obtain ⟨hrefused, huntouched, -⟩ := Grant.barred_refused (g := grant) (r := keyedRequest)
      (.inl hsettings) rfl hparse hbars site
    exact ⟨hrefused, huntouched⟩

end Specimen
end AssertionGrant
