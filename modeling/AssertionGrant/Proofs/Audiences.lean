import AssertionGrant.Proofs.Addresses
import AssertionGrant.Proofs.Faults

/-! Which audiences may be requested. As long as every text is an address, requested audiences pass
exactly if each lies below an allowed one, so passing is a preorder of lists and no order matters.
An allowed text that is no address stops the search only where the search comes to it, and then the
order of the allowed ones does matter. -/

namespace AssertionGrant

theorem exists_split_cons {α : Type} {passes ends : α → Prop} {a : α} {l : List α} :
    (∃ before x after, a :: l = before ++ x :: after ∧ (∀ b ∈ before, passes b) ∧ ends x) ↔
      ends a ∨ passes a ∧
        ∃ before x after, l = before ++ x :: after ∧ (∀ b ∈ before, passes b) ∧ ends x := by
  constructor
  · rintro ⟨before, x, after, hsplit, hbefore, hx⟩
    cases before with
    | nil =>
      obtain ⟨rfl, rfl⟩ := List.cons.inj hsplit
      exact .inl hx
    | cons first before =>
      obtain ⟨rfl, rfl⟩ := List.cons.inj hsplit
      obtain ⟨hfirst, hbefore⟩ := List.forall_mem_cons.mp hbefore
      exact .inr ⟨hfirst, before, x, after, rfl, hbefore, hx⟩
  · rintro (hx | ⟨ha, before, x, after, rfl, hbefore, hx⟩)
    · exact ⟨[], a, l, rfl, List.forall_mem_nil _, hx⟩
    · exact ⟨a :: before, x, after, rfl, List.forall_mem_cons.mpr ⟨ha, hbefore⟩, hx⟩

namespace Audience

variable {allowed other requested middle : List Text} {audience base : Text} {u : Url}
  {q : Refusal} {strategy : Strategy}

def Readable (s : Text) : Prop := ∃ u, Url.parse s = .ok u

theorem not_readable {f : Url.Fault} (h : Url.parse audience = .error f) : ¬ Readable audience := by
  rintro ⟨u, hu⟩
  cases h.symm.trans hu

instance : DecidablePred Readable := fun s =>
  match h : Url.parse s with
  | .ok u => isTrue ⟨u, h⟩
  | .error _ => isFalse (not_readable h)

def Lies (audience base : Text) : Prop :=
  ∃ u b, Url.parse audience = .ok u ∧ Url.parse base = .ok b ∧ u.Below b

theorem Lies.readable (h : Lies audience base) : Readable audience := by
  obtain ⟨u, -, hu, -⟩ := h
  exact ⟨u, hu⟩

theorem Lies.base_readable (h : Lies audience base) : Readable base := by
  obtain ⟨-, b, -, hb, -⟩ := h
  exact ⟨b, hb⟩

theorem lies_iff_below {b : Url} (hu : Url.parse audience = .ok u) (hb : Url.parse base = .ok b) :
    Lies audience base ↔ u.Below b := by
  constructor
  · rintro ⟨u', b', hu', hb', h⟩
    rw [hu] at hu'
    rw [hb] at hb'
    cases hu'
    cases hb'
    exact h
  · exact fun h => ⟨u, b, hu, hb, h⟩

/-- The requested audience lies below an allowed one, and those before are addresses. -/
def Reaches (allowed : List Text) (audience : Text) : Prop :=
  ∃ before base after, allowed = before ++ base :: after ∧ (∀ b ∈ before, Readable b) ∧
    Lies audience base

theorem Readable.lies (h : Readable audience) : Lies audience audience := by
  obtain ⟨u, hu⟩ := h
  exact ⟨u, u, hu, hu, .refl u⟩

theorem Lies.trans {next : Text} (h : Lies audience base) (h' : Lies base next) :
    Lies audience next := by
  obtain ⟨u, m, hu, hm, hbelow⟩ := h
  obtain ⟨m', b, hm', hb, hbelow'⟩ := h'
  have hsame : m = m' := Except.ok.inj (hm.symm.trans hm')
  subst hsame
  exact ⟨u, b, hu, hb, hbelow.trans hbelow'⟩

theorem reaches_cons : Reaches (base :: allowed) audience ↔
    Lies audience base ∨ Readable base ∧ Reaches allowed audience := exists_split_cons

theorem Reaches.exists_lies (h : Reaches allowed audience) : ∃ base ∈ allowed, Lies audience base := by
  obtain ⟨before, base, after, rfl, -, hlies⟩ := h
  exact ⟨base, by simp, hlies⟩

theorem reaches_iff (hallowed : ∀ base ∈ allowed, Readable base) :
    Reaches allowed audience ↔ ∃ base ∈ allowed, Lies audience base := by
  refine ⟨Reaches.exists_lies, ?_⟩
  rintro ⟨base, hmem, hlies⟩
  obtain ⟨before, after, rfl⟩ := List.append_of_mem hmem
  exact ⟨before, base, after, rfl, fun b hb => hallowed b (List.mem_append_left _ hb), hlies⟩

theorem isAllowed_eq_true (hu : Url.parse audience = .ok u) :
    isAllowed u allowed = .ok true ↔ Reaches allowed audience := by
  induction allowed with
  | nil =>
    constructor
    · intro h
      cases h
    · rintro ⟨before, base, after, h, -⟩
      simp at h
  | cons base rest ih =>
    rw [reaches_cons, ← ih, isAllowed]
    cases hb : Url.parse base with
    | error f =>
      have hunread := not_readable hb
      constructor
      · intro h
        cases h
      · rintro (h | h)
        · exact absurd h.base_readable hunread
        · exact absurd h.1 hunread
    | ok b =>
      rw [lies_iff_below hu hb, ← Url.isUnder_iff]
      have hread : Readable base := ⟨b, hb⟩
      by_cases h : u.isUnder b = true
      · simp [h]
      · simp [h, hread]

theorem isAllowed_readable (hallowed : ∀ base ∈ allowed, Readable base) (u : Url) :
    ∃ answer, isAllowed u allowed = .ok answer := by
  induction allowed with
  | nil => exact ⟨false, rfl⟩
  | cons base rest ih =>
    obtain ⟨⟨b, hb⟩, hrest⟩ := List.forall_mem_cons.mp hallowed
    rw [isAllowed, hb]
    dsimp only
    split
    · exact ⟨true, rfl⟩
    · exact ih hrest

theorem checkNested_eq_ok : checkNested allowed audience = .ok () ↔ Reaches allowed audience := by
  rw [checkNested]
  cases hu : Url.parse audience with
  | error f =>
    have hunread := not_readable hu
    constructor
    · intro h
      cases h
    · intro h
      obtain ⟨base, -, hlies⟩ := h.exists_lies
      exact absurd hlies.readable hunread
  | ok u =>
    rw [← isAllowed_eq_true hu]
    dsimp only
    split
    · next h => simp [h]
    · next h => simp [h]
    · next h => simp [h]

theorem checkNested_readable (hallowed : ∀ base ∈ allowed, Readable base)
    (haudience : Readable audience) (hnone : ¬ ∃ base ∈ allowed, Lies audience base) :
    checkNested allowed audience = .error (notAllowed audience) := by
  obtain ⟨u, hu⟩ := haudience
  obtain ⟨answer, h⟩ := isAllowed_readable hallowed u
  have hfalse : answer = false := by
    refine Bool.eq_false_iff.mpr fun htrue => hnone ?_
    rw [htrue, isAllowed_eq_true hu] at h
    exact h.exists_lies
  subst hfalse
  simp only [checkNested, hu, h]

theorem check_eq_ok : check strategy allowed requested = .ok () ↔
    ∀ audience ∈ requested, checkOne strategy allowed audience = .ok () := by
  induction requested with
  | nil => simp [check]
  | cons audience rest ih =>
    rw [List.forall_mem_cons, ← ih, check, bind_eq_ok]
    exact ⟨fun ⟨_, h, hrest⟩ => ⟨h, hrest⟩, fun ⟨h, hrest⟩ => ⟨(), h, hrest⟩⟩

theorem check_eq_error : check strategy allowed requested = .error q ↔
    ∃ before first after, requested = before ++ first :: after ∧
      (∀ audience ∈ before, checkOne strategy allowed audience = .ok ()) ∧
      checkOne strategy allowed first = .error q := by
  induction requested with
  | nil => simp [check]
  | cons audience rest ih =>
    rw [check, bind_eq_error, ih, exists_split_cons]
    exact or_congr_right ⟨fun ⟨_, h, hrest⟩ => ⟨h, hrest⟩, fun ⟨h, hrest⟩ => ⟨(), h, hrest⟩⟩

theorem nested_eq_ok : check .nested allowed requested = .ok () ↔
    ∀ audience ∈ requested, Reaches allowed audience := by
  rw [check_eq_ok]
  exact forall₂_congr fun audience _ => checkNested_eq_ok

theorem nested_eq_ok_readable (hallowed : ∀ base ∈ allowed, Readable base) :
    check .nested allowed requested = .ok () ↔
      ∀ audience ∈ requested, ∃ base ∈ allowed, Lies audience base := by
  rw [nested_eq_ok]
  exact forall₂_congr fun audience _ => reaches_iff hallowed

theorem nested_refl (hallowed : ∀ base ∈ allowed, Readable base) :
    check .nested allowed allowed = .ok () :=
  (nested_eq_ok_readable hallowed).mpr fun audience h => ⟨audience, h, (hallowed audience h).lies⟩

theorem nested_trans (hallowed : ∀ base ∈ allowed, Readable base)
    (h : check .nested allowed middle = .ok ()) (h' : check .nested middle requested = .ok ()) :
    check .nested allowed requested = .ok () := by
  rw [nested_eq_ok_readable hallowed] at h ⊢
  intro audience hmem
  obtain ⟨one, hone, hlies⟩ := (nested_eq_ok.mp h' audience hmem).exists_lies
  obtain ⟨base, hbase, hlies'⟩ := h one hone
  exact ⟨base, hbase, hlies.trans hlies'⟩

theorem mem_of_checkExact (h : checkExact allowed audience = .ok ()) : audience ∈ allowed := by
  unfold checkExact at h
  split at h
  · next hmem => exact List.contains_iff_mem.mp hmem
  · cases h

theorem nested_of_exact (hallowed : ∀ base ∈ allowed, Readable base)
    (h : check .exact allowed requested = .ok ()) : check .nested allowed requested = .ok () := by
  rw [nested_eq_ok_readable hallowed]
  intro audience hmem
  have hmem : audience ∈ allowed := mem_of_checkExact (check_eq_ok.mp h audience hmem)
  exact ⟨audience, hmem, (hallowed audience hmem).lies⟩

/-- Among addresses, requested audiences pass exactly if each lies below an allowed one, segment by
segment. That is a preorder which allows whatever is allowed by equality, and a request that does
not pass is refused for the first audience that lies below none. -/
theorem nested_preorder (hallowed : ∀ base ∈ allowed, Readable base)
    (hrequested : ∀ audience ∈ requested, Readable audience) :
    (check .nested allowed requested = .ok () ↔
      ∀ audience ∈ requested, ∃ base ∈ allowed, Lies audience base) ∧
    check .nested allowed allowed = .ok () ∧
    (∀ middle, check .nested allowed middle = .ok () → check .nested middle requested = .ok () →
      check .nested allowed requested = .ok ()) ∧
    (check .exact allowed requested = .ok () → check .nested allowed requested = .ok ()) ∧
    ∀ q, check .nested allowed requested = .error q ↔
      ∃ before first after, requested = before ++ first :: after ∧
        (∀ audience ∈ before, ∃ base ∈ allowed, Lies audience base) ∧
        (¬ ∃ base ∈ allowed, Lies first base) ∧ q = notAllowed first := by
  have hone (audience) : checkOne .nested allowed audience = .ok () ↔
      ∃ base ∈ allowed, Lies audience base := checkNested_eq_ok.trans (reaches_iff hallowed)
  refine ⟨nested_eq_ok_readable hallowed, nested_refl hallowed, fun middle => nested_trans hallowed,
    nested_of_exact hallowed, fun q => ?_⟩
  rw [check_eq_error]
  constructor
  · rintro ⟨before, first, after, rfl, hbefore, hfirst⟩
    have hnone : ¬ ∃ base ∈ allowed, Lies first base := by
      rw [← hone, hfirst]
      simp
    have hread : Readable first := hrequested first (by simp)
    have hrefused : checkOne .nested allowed first = .error (notAllowed first) :=
      checkNested_readable hallowed hread hnone
    exact ⟨before, first, after, rfl, fun audience h => (hone audience).mp (hbefore audience h), hnone,
      Except.error.inj (hfirst.symm.trans hrefused)⟩
  · rintro ⟨before, first, after, rfl, hbefore, hnone, rfl⟩
    have hread : Readable first := hrequested first (by simp)
    exact ⟨before, first, after, rfl, fun audience h => (hone audience).mpr (hbefore audience h),
      checkNested_readable hallowed hread hnone⟩

theorem sibling_refused :
    (∀ base ∈ (["https://rs.example/api//"] : List Text), Readable base) ∧
      (∀ audience ∈ (["https://rs.example/api/v1", "https://rs.example/apix"] : List Text),
        Readable audience) ∧
      check .nested ["https://rs.example/api//"]
        ["https://rs.example/api/v1", "https://rs.example/apix"] =
          .error (notAllowed "https://rs.example/apix") := by
  have hapi : Url.parse "https://rs.example/api//" = .ok ⟨"https", "rs.example", "/api//"⟩ := by
    decide
  have hbranch : Url.parse "https://rs.example/api/v1" = .ok ⟨"https", "rs.example", "/api/v1"⟩ := by
    decide
  have hsibling : Url.parse "https://rs.example/apix" = .ok ⟨"https", "rs.example", "/apix"⟩ := by
    decide
  have hallowed : ∀ base ∈ (["https://rs.example/api//"] : List Text), Readable base :=
    List.forall_mem_singleton.mpr ⟨_, hapi⟩
  have hrequested :
      ∀ audience ∈ (["https://rs.example/api/v1", "https://rs.example/apix"] : List Text),
        Readable audience :=
    List.forall_mem_cons.mpr ⟨⟨_, hbranch⟩, List.forall_mem_singleton.mpr ⟨_, hsibling⟩⟩
  have hbelow : Lies "https://rs.example/api/v1" "https://rs.example/api//" :=
    (lies_iff_below hbranch hapi).mpr (by decide)
  have hbeside : ¬ Lies "https://rs.example/apix" "https://rs.example/api//" := by
    rw [lies_iff_below hsibling hapi]
    decide
  obtain ⟨-, -, -, -, herror⟩ := nested_preorder hallowed hrequested
  refine ⟨hallowed, hrequested, (herror _).mpr
    ⟨["https://rs.example/api/v1"], _, [], rfl, ?_, ?_, rfl⟩⟩
  · exact List.forall_mem_singleton.mpr ⟨_, List.mem_singleton.mpr rfl, hbelow⟩
  · rintro ⟨base, hmem, h⟩
    rw [List.mem_singleton.mp hmem] at h
    exact hbeside h

theorem reaches_of_readable_first {good bad : List Text} (hgood : ∀ base ∈ good, Readable base)
    (h : ∃ base ∈ good, Lies audience base) : Reaches (good ++ bad) audience := by
  obtain ⟨before, base, after, rfl, hbefore, hlies⟩ := (reaches_iff hgood).mpr h
  exact ⟨before, base, after ++ bad, by simp, hbefore, hlies⟩

theorem not_reaches_of_unreadable_first (hbase : ¬ Readable base) :
    ¬ Reaches (base :: allowed) audience := by
  rw [reaches_cons]
  rintro (h | h)
  · exact hbase h.base_readable
  · exact hbase h.1

theorem order_matters_iff :
    (∀ other : List Text, other.Perm allowed →
      (check .nested other requested = .ok () ↔ check .nested allowed requested = .ok ())) ↔
    requested = [] ∨ (∀ base ∈ allowed, Readable base) ∨
      ∃ audience ∈ requested, ∀ base ∈ allowed, ¬ Lies audience base := by
  constructor
  · intro hsame
    by_contra hnot
    push Not at hnot
    obtain ⟨hsome, ⟨bad, hbad, hunread⟩, hlies⟩ := hnot
    obtain ⟨first, hfirst⟩ := List.exists_mem_of_ne_nil _ hsome
    have hgood : (allowed.filter (Readable ·) ++ allowed.filter fun b => !Readable b).Perm allowed :=
      List.filter_append_perm _ _
    have hpasses : check .nested allowed requested = .ok () := by
      refine (hsame _ hgood).mp (nested_eq_ok.mpr fun audience hmem => ?_)
      obtain ⟨base, hbase, h⟩ := hlies audience hmem
      refine reaches_of_readable_first (fun b hb => by simpa using (List.mem_filter.mp hb).2)
        ⟨base, List.mem_filter.mpr ⟨hbase, by simpa using h.base_readable⟩, h⟩
    have hbadFirst : (bad :: allowed.erase bad).Perm allowed := (List.perm_cons_erase hbad).symm
    have hreaches := nested_eq_ok.mp ((hsame _ hbadFirst).mpr hpasses) first hfirst
    exact not_reaches_of_unreadable_first hunread hreaches
  · rintro (rfl | hread | ⟨audience, hmem, hnone⟩) other hperm
    · exact Iff.rfl
    · have hother : ∀ base ∈ other, Readable base := fun b hb => hread b (hperm.mem_iff.mp hb)
      rw [nested_eq_ok_readable hread, nested_eq_ok_readable hother]
      simp only [hperm.mem_iff]
    · have hfails (l : List Text) (hl : ∀ base ∈ l, base ∈ allowed) :
          check .nested l requested ≠ .ok () := by
        intro h
        obtain ⟨base, hbase, hlies⟩ := (nested_eq_ok.mp h audience hmem).exists_lies
        exact hnone base (hl base hbase) hlies
      have hother := hfails other fun b hb => hperm.mem_iff.mp hb
      have hallowed := hfails allowed fun b hb => hb
      exact ⟨fun h => absurd h hother, fun h => absurd h hallowed⟩

theorem nested_perm (h : other.Perm requested) :
    check .nested allowed other = .ok () ↔ check .nested allowed requested = .ok () := by
  simp only [nested_eq_ok, h.mem_iff]

/-- Requested audiences pass exactly if each lies below an allowed one with nothing but addresses in
front of it. So a requested text that is no address is always refused and the order of the request
makes no difference, but an allowed text that is no address is refused only if the search comes to
it. -/
theorem nested_refuses_reached (allowed requested : List Text) :
    (check .nested allowed requested = .ok () ↔
      ∀ audience ∈ requested, ∃ before base after, allowed = before ++ base :: after ∧
        (∀ b ∈ before, Readable b) ∧ Lies audience base) ∧
    (∀ q, check .nested allowed requested = .error q → q.kind = .invalidRequest) ∧
    ((∃ audience ∈ requested, ¬ Readable audience) → check .nested allowed requested ≠ .ok ()) ∧
    (∀ other : List Text, other.Perm requested →
      (check .nested allowed other = .ok () ↔ check .nested allowed requested = .ok ())) ∧
    ((∀ other : List Text, other.Perm allowed →
        (check .nested other requested = .ok () ↔ check .nested allowed requested = .ok ())) ↔
      requested = [] ∨ (∀ base ∈ allowed, Readable base) ∨
        ∃ audience ∈ requested, ∀ base ∈ allowed, ¬ Lies audience base) := by
  refine ⟨nested_eq_ok, fun q => kind_of_check, ?_, fun other => nested_perm, order_matters_iff⟩
  rintro ⟨audience, hmem, hunread⟩ h
  obtain ⟨base, -, hlies⟩ := (nested_eq_ok.mp h audience hmem).exists_lies
  exact hunread hlies.readable

theorem unread_behind_match :
    ¬ Readable "http://[::1" ∧
      check .nested ["https://ok.example/", "http://[::1"] ["https://ok.example/x"] = .ok () ∧
      ∃ q, check .nested ["http://[::1", "https://ok.example/"] ["https://ok.example/x"] = .error q ∧
        q.kind = .invalidRequest := by
  have hunread : ¬ Readable "http://[::1" := by decide
  have hroot : Url.parse "https://ok.example/" = .ok ⟨"https", "ok.example", "/"⟩ := by decide
  have hpage : Url.parse "https://ok.example/x" = .ok ⟨"https", "ok.example", "/x"⟩ := by decide
  have hlies := (lies_iff_below hpage hroot).mpr (by decide)
  obtain ⟨hpasses, -⟩ :=
    nested_refuses_reached ["https://ok.example/", "http://[::1"] ["https://ok.example/x"]
  obtain ⟨-, hkind, -⟩ :=
    nested_refuses_reached ["http://[::1", "https://ok.example/"] ["https://ok.example/x"]
  refine ⟨hunread, hpasses.mpr fun audience hmem => ?_, ?_⟩
  · rw [List.mem_singleton.mp hmem]
    exact ⟨[], _, _, rfl, List.forall_mem_nil _, hlies⟩
  · cases h : check .nested ["http://[::1", "https://ok.example/"] ["https://ok.example/x"] with
    | ok =>
      exact absurd (nested_eq_ok.mp h _ (List.mem_singleton.mpr rfl))
        (not_reaches_of_unreadable_first hunread)
    | error q => exact ⟨q, rfl, hkind q h⟩

end Audience
end AssertionGrant
