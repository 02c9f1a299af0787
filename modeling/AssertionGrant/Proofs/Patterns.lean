import AssertionGrant.Proofs.Branches

/-! Scopes as patterns. The wildcard strategy holds a registered scope against a requested one segment
by segment: a star stands for one segment that is not empty, and a last star for any further segments
as well. Whatever a pattern matches reaches no further than the pattern when it is used as one. -/

namespace AssertionGrant.Scope

variable {p q : Text} {ps qs : List Text} {scope requested : Text}

abbrev wild : Text := "*"

def Fits (p q : Text) : Prop := p = q ∨ p = wild ∧ q ≠ []

theorem segmentCovers_iff : segmentCovers p q = true ↔ Fits p q := by
  simp [segmentCovers, Fits, or_comm]

theorem Fits.trans {r : Text} (h : Fits p q) (h' : Fits q r) : Fits p r := by
  rcases h with rfl | ⟨rfl, hq⟩
  · exact h'
  · rcases h' with rfl | ⟨-, hr⟩
    · exact .inr ⟨rfl, hq⟩
    · exact .inr ⟨rfl, hr⟩

theorem Fits.star (h : Fits p wild) : p = wild := h.elim id And.left

/-- The segments of a pattern and those of a text: every segment of the pattern fits the one at its
place, and only a last star leaves some over. -/
structure Matches (pattern text : List Text) : Prop where
  long : pattern.length ≤ text.length
  fits : ∀ (i : Nat) p q, pattern[i]? = some p → text[i]? = some q → Fits p q
  ends : pattern.length = text.length ∨ pattern.getLast? = some wild

theorem matches_nil : Matches [] qs ↔ qs = [] := by
  constructor
  · intro h
    have hlen : 0 = qs.length := h.ends.resolve_right nofun
    exact List.length_eq_zero_iff.mp hlen.symm
  · rintro rfl
    exact ⟨Nat.le_refl _, nofun, .inl rfl⟩

theorem not_matches_nil : ¬ Matches (p :: ps) [] := fun h => absurd h.long (by simp)

theorem fits_cons : (∀ (i : Nat) a b, (p :: ps)[i]? = some a → (q :: qs)[i]? = some b → Fits a b) ↔
    Fits p q ∧ ∀ (i : Nat) a b, ps[i]? = some a → qs[i]? = some b → Fits a b := by
  constructor
  · intro h
    exact ⟨h 0 p q rfl rfl, fun i => h (i + 1)⟩
  · rintro ⟨hp, h⟩ i a b ha hb
    cases i with
    | zero =>
      obtain rfl : p = a := Option.some.inj ha
      obtain rfl : q = b := Option.some.inj hb
      exact hp
    | succ i => exact h i a b ha hb

theorem matches_last : Matches [p] (q :: qs) ↔ (qs = [] ∨ p = wild) ∧ Fits p q := by
  have hlen : [p].length = (q :: qs).length ↔ qs = [] := by simp
  have hstar : [p].getLast? = some wild ↔ p = wild := by simp
  constructor
  · intro h
    exact ⟨by rw [← hlen, ← hstar]; exact h.ends, (fits_cons.mp h.fits).1⟩
  · rintro ⟨hends, hfits⟩
    exact ⟨by simp, fits_cons.mpr ⟨hfits, nofun⟩, by rwa [hlen, hstar]⟩

theorem matches_cons (hps : ps ≠ []) : Matches (p :: ps) (q :: qs) ↔ Fits p q ∧ Matches ps qs := by
  have hlast : (p :: ps).getLast? = ps.getLast? := by
    obtain ⟨first, more, rfl⟩ := List.exists_cons_of_ne_nil hps
    exact List.getLast?_cons_cons
  constructor
  · intro h
    obtain ⟨hfits, hmore⟩ := fits_cons.mp h.fits
    have hlong := h.long
    have hends := h.ends
    rw [hlast] at hends
    simp only [List.length_cons, Nat.add_right_cancel_iff, Nat.add_le_add_iff_right] at hlong hends
    exact ⟨hfits, hlong, hmore, hends⟩
  · rintro ⟨hfits, h⟩
    refine ⟨?_, fits_cons.mpr ⟨hfits, h.fits⟩, ?_⟩
    · simpa using h.long
    · rw [hlast]
      simpa using h.ends

theorem segmentsCover_iff : segmentsCover ps qs = true ↔ Matches ps qs := by
  induction ps, qs using segmentsCover.induct with
  | case1 => simp [segmentsCover, matches_nil]
  | case2 q qs => simp [segmentsCover, matches_nil]
  | case3 p ps => simp [segmentsCover, not_matches_nil]
  | case4 p q qs => simp [segmentsCover, matches_last, segmentCovers_iff]
  | case5 p ps q qs hps ih =>
    rw [segmentsCover, matches_cons, Bool.and_eq_true, segmentCovers_iff, ih]
    all_goals exact hps

theorem matches_refl (ps : List Text) : Matches ps ps where
  long := Nat.le_refl _
  fits _ _ _ hp hq := .inl (Option.some.inj (hp.symm.trans hq))
  ends := .inl rfl

theorem Matches.trans {rs : List Text} (h : Matches ps qs) (h' : Matches qs rs) :
    Matches ps rs where
  long := Nat.le_trans h.long h'.long
  fits i p r hp hr := by
    have hi : i < qs.length :=
      Nat.lt_of_lt_of_le (List.getElem?_eq_some_iff.mp hp).1 h.long
    have hq : qs[i]? = some qs[i] := List.getElem?_eq_getElem hi
    exact (h.fits i p _ hp hq).trans (h'.fits i _ r hq hr)
  ends := by
    rcases h.ends with hlen | hstar
    · rcases h'.ends with hlen' | hstar
      · exact .inl (hlen.trans hlen')
      -- The last segment of the pattern stands against a star, so it is one itself.
      · refine .inr ?_
        rw [List.getLast?_eq_getElem?, ← hlen] at hstar
        obtain ⟨hi, -⟩ := List.getElem?_eq_some_iff.mp hstar
        rw [← hlen] at hi
        have hp : ps[ps.length - 1]? = some ps[ps.length - 1] := List.getElem?_eq_getElem hi
        rw [List.getLast?_eq_getElem?, hp, (h.fits _ _ _ hp hstar).star]
    · exact .inr hstar

theorem matches_literal (hps : wild ∉ ps) : Matches ps qs ↔ qs = ps := by
  constructor
  · intro h
    have hlen : ps.length = qs.length :=
      h.ends.resolve_right fun hstar => hps (List.mem_of_getLast? hstar)
    refine (List.ext_getElem hlen fun i hp hq => ?_).symm
    have hfits := h.fits i _ _ (List.getElem?_eq_getElem hp) (List.getElem?_eq_getElem hq)
    exact hfits.resolve_right fun hstar => hps (hstar.1 ▸ List.getElem_mem hp)
  · rintro rfl
    exact matches_refl qs

theorem matches_append {before : List Text} (hps : ps ≠ []) : Matches (before ++ ps) qs ↔
    ∃ front back, qs = front ++ back ∧ List.Forall₂ Fits before front ∧ Matches ps back := by
  induction before generalizing qs with
  | nil =>
    constructor
    · intro h
      exact ⟨[], qs, rfl, .nil, h⟩
    · rintro ⟨front, back, rfl, hfront, h⟩
      cases hfront
      exact h
  | cons p before ih =>
    constructor
    · intro h
      cases qs with
      | nil => exact absurd h not_matches_nil
      | cons q qs =>
        obtain ⟨hfits, h⟩ := (matches_cons (by simp [hps])).mp h
        obtain ⟨front, back, rfl, hfront, h⟩ := ih.mp h
        exact ⟨q :: front, back, rfl, .cons hfits hfront, h⟩
    · rintro ⟨front, back, rfl, hfront, h⟩
      cases hfront with
      | cons hfits hfront =>
        refine (matches_cons (by simp [hps])).mpr ⟨hfits, ih.mpr ⟨_, back, rfl, hfront, h⟩⟩

theorem matches_star {after : List Text} : Matches (wild :: after) qs ↔
    ∃ star back, qs = star :: back ∧ star ≠ [] ∧ (after = [] ∨ Matches after back) := by
  have hfits (q : Text) : Fits wild q ↔ q ≠ [] := by
    constructor
    · rintro (rfl | ⟨-, hq⟩)
      · decide
      · exact hq
    · exact fun hq => .inr ⟨rfl, hq⟩
  cases qs with
  | nil => simp [not_matches_nil]
  | cons q qs =>
    by_cases hafter : after = []
    · rw [hafter, matches_last, hfits]
      simp
    · rw [matches_cons hafter, hfits]
      simp [hafter]

theorem wildcard_grants_one : Strategy.wildcard.Grants [scope] requested ↔
    Matches (segments scope) (segments requested) := by
  rw [Strategy.grants_iff_covers, Strategy.covers, List.any_cons, List.any_nil, Bool.or_false,
    segmentsCover_iff]

/-- The wildcard strategy grants what a registered scope matches. So a scope without a star grants
itself only, a segment that is not just a star stands for itself, and a star stands for one segment
that is not empty, followed by any others if it is the last one and by what the rest of the scope
matches if it is not. -/
theorem wildcard_grants_matching (registered : List Text) (requested : Text) :
    (∃ answer, Strategy.wildcard.rule (.arr (registered.map .str)) requested = .ok answer ∧
      (answer = true ↔ ∃ scope ∈ registered, Matches (segments scope) (segments requested))) ∧
    (∀ scope, wild ∉ segments scope →
      (Strategy.wildcard.Grants [scope] requested ↔ requested = scope)) ∧
    (∀ scope, Strategy.wildcard.Grants [scope] requested → ∀ (i : Nat) p,
      (segments scope)[i]? = some p → p ≠ wild → (segments requested)[i]? = some p) ∧
    ∀ scope before after, segments scope = before ++ wild :: after →
      (Strategy.wildcard.Grants [scope] requested ↔ ∃ front star back,
        segments requested = front ++ star :: back ∧ List.Forall₂ Fits before front ∧ star ≠ [] ∧
          (after = [] ∨ Matches after back)) := by
  refine ⟨⟨_, Strategy.rule_texts registered, ?_⟩, fun scope hstar => ?_, fun scope h i p hp hne => ?_,
    fun scope before after hscope => ?_⟩
  · rw [← Strategy.grants_iff_covers, Strategy.grants_iff_exists]
    simp only [wildcard_grants_one]
  · rw [wildcard_grants_one, matches_literal hstar, segments_injective.eq_iff]
  · have h := wildcard_grants_one.mp h
    have hi : i < (segments requested).length :=
      Nat.lt_of_lt_of_le (List.getElem?_eq_some_iff.mp hp).1 h.long
    have hq := List.getElem?_eq_getElem hi
    rw [hq, (h.fits i p _ hp hq).resolve_right fun hstar => hne hstar.1]
  · rw [wildcard_grants_one, hscope, matches_append (List.cons_ne_nil _ _)]
    constructor
    · rintro ⟨front, _, hsplit, hfront, h⟩
      obtain ⟨star, back, rfl, hne, h⟩ := matches_star.mp h
      exact ⟨front, star, back, hsplit, hfront, hne, h⟩
    · rintro ⟨front, star, back, hsplit, hfront, hne, h⟩
      exact ⟨front, _, hsplit, hfront, matches_star.mpr ⟨star, back, rfl, hne, h⟩⟩

theorem photos_granted :
    Strategy.wildcard.Grants ["photos.*.own"] "photos.read.own" ∧
      (segments "photos.read.own")[2]? = some (Text.ofString "own") ∧
      Strategy.wildcard.Grants ["photos.*"] "photos.read.own" ∧
      ¬ Strategy.wildcard.Grants ["photos.*"] "photos." ∧
      ¬ Strategy.wildcard.Grants ["ph*tos"] "photos" := by
  have hsplit : segments "photos.read.own" = ["photos", "read", "own"].map Text.ofString := by decide
  have hown : segments "photos.*.own" = ["photos"].map Text.ofString ++ wild ::
      ["own"].map Text.ofString := by decide
  have hall : segments "photos.*" = ["photos"].map Text.ofString ++ wild :: [] := by decide
  have hphotos : List.Forall₂ Fits (["photos"].map Text.ofString) (["photos"].map Text.ofString) :=
    .cons (.inl rfl) .nil
  obtain ⟨-, -, hliteral, hstar⟩ := wildcard_grants_matching [] "photos.read.own"
  have hgranted : Strategy.wildcard.Grants ["photos.*.own"] "photos.read.own" :=
    (hstar _ _ _ hown).mpr ⟨_, "read", ["own"].map Text.ofString, hsplit, hphotos, by decide,
      .inr (matches_refl _)⟩
  refine ⟨hgranted, hliteral _ hgranted 2 "own" (by rw [hown]; rfl) (by decide), ?_, ?_, ?_⟩
  · exact (hstar _ _ _ hall).mpr
      ⟨_, "read", ["own"].map Text.ofString, hsplit, hphotos, by decide, .inl rfl⟩
  · rw [Strategy.grants_iff_covers]
    decide
  · rw [(wildcard_grants_matching [] "photos").2.1 "ph*tos" (by decide)]
    decide

end AssertionGrant.Scope
