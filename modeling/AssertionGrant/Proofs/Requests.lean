import AssertionGrant.Grant
import AssertionGrant.Proofs.Words
import AssertionGrant.Request.OfForm

/-! Requests that come from forms. Each name counts with its first value, the requested scopes are
the distinct words of one parameter, and whatever is granted to such a request is what it holds
afterwards. -/

namespace AssertionGrant

namespace Form

theorem find?_filterMap_find? (form : List (String × String)) (names : List String)
    (name : String) :
    (names.filterMap fun n => form.find? (·.1 = n)).find? (·.1 = name) =
      if name ∈ names then form.find? (·.1 = name) else none := by
  induction names with
  | nil => rfl
  | cons n names ih =>
    rw [List.filterMap_cons]
    cases hfield : form.find? (·.1 = n) with
    | none =>
      dsimp only
      rw [ih]
      by_cases hn : name = n
      · subst hn
        simp [hfield]
      · simp [hn]
    | some field =>
      have hname : field.1 = n := by simpa using List.find?_some hfield
      dsimp only
      rw [List.find?_cons, ih, hname]
      by_cases hn : n = name
      · subst hn
        simp [hfield]
      · simp [hn, Ne.symm hn]

theorem find?_firstValues (form : List (String × String)) (name : String) :
    (firstValues form).find? (·.1 = name) = form.find? (·.1 = name) := by
  unfold firstValues
  rw [find?_filterMap_find?]
  split
  · rfl
  · next hname =>
    symm
    rw [List.find?_eq_none]
    intro field hfield he
    have he : field.1 = name := by simpa using he
    exact hname (Text.mem_distinct.mpr (he ▸ List.mem_map_of_mem hfield))

theorem valuesOf_head? (form : List (String × String)) (name : String) :
    (valuesOf form name).head? = (form.find? (·.1 = name)).map (·.2) := by
  unfold valuesOf
  rw [List.head?_map, List.head?_filter]

end Form

namespace AccessRequest

variable {form : List (String × String)} {client : Option Client} {session : Option Session}
  {id : Text} {r : AccessRequest}

def requestedOf (form : List (String × String)) : List Text :=
  Text.distinct (Text.words (firstOf form "scope"))

structure Ungranted (r : AccessRequest) (form : List (String × String)) (client : Option Client)
    (session : Option Session) : Prop where
  assertion : ∀ raw, r.parameter? "assertion" = some raw → raw = firstOf form "assertion"
  scopes : r.scopes = requestedOf form
  client : r.client = client
  session : r.session = session
  grantedScopes : r.grantedScopes = []
  grantedAudience : r.grantedAudience = []

theorem ungranted_of_ofForm (h : ofForm form client session id = .ok r) :
    r.Ungranted form client session := by
  unfold ofForm at h
  split at h
  · cases h
  · dsimp only at h
    split at h
    · cases h
    · obtain rfl := Except.ok.inj h
      refine ⟨fun raw hraw => ?_, Scope.parse_eq _, rfl, rfl, rfl, rfl⟩
      unfold parameter? at hraw
      dsimp only at hraw
      rw [Form.find?_firstValues, ← Form.valuesOf_head?] at hraw
      unfold firstOf
      rw [List.headD_eq_head?_getD, hraw, Option.getD_some]

end AccessRequest

theorem Grant.granting_eq {r : AccessRequest} {form : List (String × String)}
    {client : Option Client} {session : Option Session} (hr : r.Ungranted form client session)
    (c : Claims) : granting r c = { r with
      grantedScopes := AccessRequest.requestedOf form
      grantedAudience := Text.distinct c.audience } := by
  have hscopes : r.scopes.foldl AccessRequest.included r.grantedScopes =
      AccessRequest.requestedOf form := by
    rw [hr.grantedScopes, AccessRequest.foldl_included_nil, hr.scopes]
    exact Text.distinct_of_nodup (Text.nodup_distinct _)
  unfold granting
  rw [AccessRequest.foldl_grantScope, AccessRequest.foldl_grantAudience, hscopes]
  dsimp only
  rw [hr.grantedAudience, AccessRequest.foldl_included_nil]

end AssertionGrant
