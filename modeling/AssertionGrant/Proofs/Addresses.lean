import AssertionGrant.Url
import Mathlib.Data.List.DropRight

/-! One web address below another. What lies below an address has its path without the slashes at
the end, or continues that after a slash, so a sibling whose name only begins alike does not. The
relation is a preorder: slashes at the end of a path make no difference to what is below it. -/

namespace AssertionGrant.Url

variable {u middle base : Url} {front path next : Text}

abbrev isSlash (l : Letter) : Bool := l == .char '/'

def stem (u : Url) : Text := u.path.rdropWhile isSlash

def Continues (front path : Text) : Prop := path = front ∨ front ++ [.char '/'] <+: path

structure Below (u base : Url) : Prop where
  scheme : u.scheme = base.scheme
  authority : u.authority = base.authority
  path : Continues base.stem u.path

instance : Decidable (Continues front path) := inferInstanceAs (Decidable (_ ∨ _))

instance : Decidable (u.Below base) :=
  decidable_of_iff
    (u.scheme = base.scheme ∧ u.authority = base.authority ∧ Continues base.stem u.path)
    ⟨fun ⟨hscheme, hauthority, hpath⟩ => ⟨hscheme, hauthority, hpath⟩,
      fun h => ⟨h.scheme, h.authority, h.path⟩⟩

theorem rdropWhile_append (p : Letter → Bool) (xs ys : Text) :
    (xs ++ ys).rdropWhile p =
      if (ys.rdropWhile p).isEmpty then xs.rdropWhile p else xs ++ ys.rdropWhile p := by
  unfold List.rdropWhile
  rw [List.reverse_append, List.dropWhile_append, List.isEmpty_reverse]
  split
  · rfl
  · rw [List.reverse_append, List.reverse_reverse]

theorem exists_slashes (u : Url) : ∃ n, u.path = u.stem ++ List.replicate n (.char '/') := by
  refine ⟨(u.path.rtakeWhile isSlash).length, ?_⟩
  have hslashes : u.path.rtakeWhile isSlash =
      List.replicate (u.path.rtakeWhile isSlash).length (.char '/') := by
    refine List.eq_replicate_iff.mpr ⟨rfl, fun c hc => ?_⟩
    have hslash : isSlash c = true := List.mem_rtakeWhile_imp hc
    exact beq_iff_eq.mp hslash
  rw [← hslashes, stem, List.rdropWhile_append_rtakeWhile]

theorem continues_stem (u : Url) : Continues u.stem u.path := by
  obtain ⟨n, hn⟩ := u.exists_slashes
  rw [hn]
  cases n with
  | zero => exact .inl (List.append_nil _)
  | succ n =>
    refine .inr ⟨List.replicate n (.char '/'), ?_⟩
    rw [List.replicate_succ, List.append_assoc, List.singleton_append]

theorem Continues.trans (h : Continues front path) (h' : Continues path next) :
    Continues front next := by
  rcases h with rfl | h
  · exact h'
  · rcases h' with rfl | h'
    · exact .inr h
    · exact .inr (h.trans ((List.prefix_append path [.char '/']).trans h'))

theorem Continues.rdropWhile (hfront : front.rdropWhile isSlash = front) (h : Continues front path) :
    Continues front (path.rdropWhile isSlash) := by
  rcases h with rfl | ⟨rest, rfl⟩
  · exact .inl hfront
  · rw [rdropWhile_append]
    split
    · rw [List.rdropWhile_concat_pos _ _ _ (by decide), hfront]
      exact .inl rfl
    · exact .inr (List.prefix_append _ _)

theorem Below.refl (u : Url) : u.Below u := ⟨rfl, rfl, u.continues_stem⟩

theorem Below.trans (h : u.Below middle) (h' : middle.Below base) : u.Below base := by
  have hstem : Continues base.stem middle.stem :=
    h'.path.rdropWhile (List.rdropWhile_idempotent _ _)
  exact ⟨h.scheme.trans h'.scheme, h.authority.trans h'.authority, hstem.trans h.path⟩

theorem continues_iff : Continues base.stem u.path ↔
    u.path = base.basePath ∨ (base.basePath ++ Text.ofString "/").isPrefixOf u.path = true :=
  or_congr_right List.isPrefixOf_iff_prefix.symm

theorem isUnder_iff : u.isUnder base = true ↔ u.Below base := by
  simp only [isUnder, Bool.and_eq_true, Bool.or_eq_true, beq_iff_eq]
  constructor
  · rintro ⟨⟨hscheme, hauthority⟩, hpath⟩
    refine ⟨hscheme, hauthority, ?_⟩
    rcases hpath with (hsame | hstem) | hbegins
    · rw [hsame]
      exact base.continues_stem
    · exact continues_iff.mpr (.inl hstem)
    · exact continues_iff.mpr (.inr hbegins)
  · intro h
    refine ⟨⟨h.scheme, h.authority⟩, ?_⟩
    rcases continues_iff.mp h.path with hstem | hbegins
    · exact .inl (.inr hstem)
    · exact .inr hbegins

end AssertionGrant.Url
