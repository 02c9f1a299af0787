import AssertionGrant.Proofs.Handling

/-! How long accepted claims last. Their lifetime is capped from their date of issue, or from now if
they have none; a date of issue that is still to come moves the cap with it. The record of their
identifier ends with them, or less than a second later on the shared server, which counts whole
seconds. -/

namespace AssertionGrant

theorem Instant.since_le {now later : Instant} (hnow : inRange now.micros = true)
    (hlater : inRange later.micros = true) : (later.since now).micros ≤ last - first := by
  obtain ⟨hfirst, -⟩ : first ≤ now.micros ∧ now.micros ≤ last := by simpa [inRange] using hnow
  obtain ⟨-, hlast⟩ : first ≤ later.micros ∧ later.micros ≤ last := by simpa [inRange] using hlater
  unfold since
  dsimp only
  omega

namespace ReplayStore

/-- The microseconds for which an identifier may be remembered beyond its expiry: none in memory,
and less than a second on the shared server. -/
def slack : ReplayStore → Int
  | .memory _ _ => 0
  | .shared => 999999

theorem slack_nonneg (store : ReplayStore) : 0 ≤ store.slack := by
  cases store with
  | memory threshold ledger => exact Int.le_refl 0
  | shared => exact Int.natCast_nonneg 999999

theorem endOf_le (store : ReplayStore) {now expiry : Instant} (h : now.micros < expiry.micros)
    (hnow : Instant.inRange now.micros = true) (hexpiry : Instant.inRange expiry.micros = true) :
    (store.endOf now expiry).micros ≤ expiry.micros + store.slack := by
  cases store with
  | memory threshold ledger => exact Int.le_of_eq (Int.add_zero _).symm
  | shared =>
    have hspan : expiry.micros - now.micros ≤ 253402300799999999 - -62135596800000000 :=
      Instant.since_le hnow hexpiry
    obtain ⟨p, hp⟩ : ∃ p : Nat, expiry.micros - now.micros = p :=
      ⟨_, (Int.toNat_of_nonneg (by omega)).symm⟩
    obtain ⟨k, hk, hpk⟩ := Binary64.exists_ceil_le_of_ratio (p := p) (k := (p + 999999) / 1000000)
      (by omega) (by omega)
    have hkeep : keepSeconds now expiry = (max 1 k).toNat := by
      unfold keepSeconds Instant.since Span.seconds
      rw [hp, hk, Option.getD_some]
    change now.micros + keepSeconds now expiry * 1000000 ≤ expiry.micros + 999999
    rw [hkeep]
    omega

end ReplayStore

theorem Records.holds_earlier {a : Records} {now t : Instant} {jti : Text} (h : a.Holds t jti)
    (ht : now.micros ≤ t.micros) : a.Holds now jti := by
  obtain ⟨store, cache⟩ := a
  cases store with
  | memory threshold ledger => exact Ledger.Holds.earlier h ht
  | shared =>
    obtain ⟨text, hmem, hkey, hlive⟩ := h
    exact ⟨text, hmem, hkey, by omega⟩

theorem Records.end_of_mark {a b : Records} {now expiry t : Instant} {jti : Text}
    (hd : a.store.Distinct) (h : now.micros < expiry.micros)
    (hnow : Instant.inRange now.micros = true) (hexpiry : Instant.inRange expiry.micros = true)
    (hmark : a.store.mark a.cache now jti expiry = .ok (true, b.store, b.cache))
    (hholds : b.Holds t jti) : t.micros < expiry.micros + a.store.slack := by
  have hslack := a.store.slack_nonneg
  by_cases hlate : now.micros ≤ t.micros
  · rcases mark_eq_ok hd hmark with ⟨hfalse, -⟩ | ⟨-, -, hfresh, hmarked⟩
    · cases hfalse
    · have hend := a.store.endOf_le h hnow hexpiry
      rcases (hmarked.holds t jti hlate).mp hholds with hbefore | ⟨-, hlt⟩
      -- What was held before the mark would have been held at the mark.
      · exact absurd (holds_earlier hbefore hlate) hfresh
      · omega
  · omega

namespace Claims
open Act

variable {settings : Settings} {c : Claims} {now expiry : Instant} {s s' : Site}

/-- Claims that pass all rules expire within the cap from their date of issue, or from now if they
have none, and so within the cap from now unless that date is still to come. A record made for their
identifier before they expire ends with them, up to the slack of its store. -/
theorem lifetime_of_validate (h : (validate settings c now).Gives s expiry s') :
    c.expiresAt = some expiry ∧
      expiry.micros ≤ (c.issuedAt.getD now).micros + settings.maxDuration.micros ∧
      ((∀ issued, c.issuedAt = some issued → issued.micros ≤ now.micros) →
        expiry.micros ≤ now.micros + settings.maxDuration.micros) ∧
      ∀ (a b : Records) (t later : Instant), a.store.Distinct →
        Instant.inRange later.micros = true → Instant.inRange expiry.micros = true →
        later.micros < expiry.micros →
        a.store.mark a.cache later c.jwtId expiry = .ok (true, b.store, b.cache) →
        b.Holds t c.jwtId → t.micros < expiry.micros + a.store.slack := by
  have hkeep := checkStateless_eq_ok.mp (checkStateless_of_validate h)
  have hbrief := hkeep.brief
  refine ⟨hkeep.expires, by omega, fun hissued => ?_, ?_⟩
  · cases hi : c.issuedAt with
    | none =>
      rw [hi, Option.getD_none] at hbrief
      omega
    | some issued =>
      have := hissued issued hi
      rw [hi, Option.getD_some] at hbrief
      omega
  · intro a b t later hd hlater hexpiry hlt hmark hholds
    exact Records.end_of_mark hd hlt hlater hexpiry hmark hholds

end Claims

namespace Specimen
open Act

def briefSettings : Settings :=
  { tokenUrl := "as", maxDuration := .ofSeconds 5, jwtIdOptional := true }

def postdated : Claims :=
  { issuer := "i", subject := "s", audience := ["as"], issuedAt := some ⟨10000000⟩,
    expiresAt := some ⟨15000000⟩ }

theorem postdated_passes :
    (postdated.validate briefSettings site.now).Gives site ⟨15000000⟩ site := rfl

/-- With a date of issue that is still to come claims outlive the cap counted from now. -/
theorem postdated_outlives_cap :
    ¬ ∀ (settings : Settings) (c : Claims) (now expiry : Instant) (s s' : Site),
      (c.validate settings now).Gives s expiry s' →
        expiry.micros ≤ now.micros + settings.maxDuration.micros := by
  intro h
  have hcap := h _ _ _ _ _ _ postdated_passes
  exact absurd hcap (by decide)

theorem postdated_within_cap_of_issue :
    (postdated.validate briefSettings site.now).Gives site ⟨15000000⟩ site ∧
      (15000000 : Int) ≤ 10000000 + briefSettings.maxDuration.micros :=
  ⟨postdated_passes, (Claims.lifetime_of_validate postdated_passes).2.1⟩

end Specimen
end AssertionGrant
