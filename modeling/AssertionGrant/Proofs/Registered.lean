import AssertionGrant.Proofs.Coverage
import AssertionGrant.Proofs.Findings

/-! Where the scopes of a found key come from. In a store that was filled by calls the key that
verified an assertion is on the roll, and the scopes under its identifier are those that were
registered with it. -/

namespace AssertionGrant

variable [Json.Nesting]

namespace KeyStore

variable {store : KeyStore} {cache : Cache} {roll : Roll} {issuer subject keyId : Text}

section Outages

variable {issuer subject keyId : Json}

theorem find_of_up {stored : Stored} (h : store.find cache issuer subject keyId = .ok stored) :
    store.find { cache with outage := none } issuer subject keyId = .ok stored := by
  cases store with
  | memory registry => exact h
  | shared =>
    obtain ⟨text, htext, h⟩ := bind_eq_ok.mp h
    obtain ⟨_, hreach, htext⟩ := bind_eq_ok.mp htext
    exact bind_eq_ok.mpr ⟨text, htext, h⟩

theorem list_of_up {keys : List Jwk} (h : store.list cache issuer subject = .ok keys) :
    store.list { cache with outage := none } issuer subject = .ok keys := by
  cases store with
  | memory registry => exact h
  | shared =>
    obtain ⟨fields, hfields, h⟩ := bind_eq_ok.mp h
    obtain ⟨_, hreach, hfields⟩ := bind_eq_ok.mp hfields
    exact bind_eq_ok.mpr ⟨fields, hfields, h⟩

end Outages

theorem Filled.of_find (h : Filled store cache roll) {stored : Stored}
    (hfind : store.find cache (.str issuer) (.str subject) (.str keyId) = .ok stored) :
    ∃ e, roll.find? store.isShared issuer subject keyId = some e ∧
      stored = ⟨e.key.jwk, e.scopesJson⟩ := by
  have hup : Filled store { cache with outage := none } roll := .elsewhere h rfl
  have hfind := find_of_up hfind
  rw [hup.find rfl] at hfind
  cases he : roll.find? store.isShared issuer subject keyId with
  | none =>
    rw [he] at hfind
    cases hfind
  | some e =>
    rw [he] at hfind
    exact ⟨e, rfl, (Except.ok.inj hfind).symm⟩

theorem Filled.of_list (h : Filled store cache roll) {keys : List Jwk}
    (hlist : store.list cache (.str issuer) (.str subject) = .ok keys) :
    keys = (roll.listing store.isShared issuer subject).map (·.key.jwk) := by
  have hup : Filled store { cache with outage := none } roll := .elsewhere h rfl
  have hlist := list_of_up hlist
  rw [hup.list rfl] at hlist
  exact (Except.ok.inj hlist).symm

variable {t : Compact} {allowed : List Text} {key : Jwk}

theorem Resolves.exists_entry (h : store.Resolves cache t allowed issuer subject key)
    (hroll : Filled store cache roll) :
    ∃ e ∈ roll, e.isFor store.isShared issuer subject = true ∧ e.key.jwk = key := by
  by_cases hid : Assertion.keyId t = []
  · obtain ⟨before, after, hlist, -⟩ := h.first hid
    have hkey : key ∈ (roll.listing store.isShared issuer subject).map (·.key.jwk) := by
      rw [← hroll.of_list hlist]
      exact List.mem_append_right _ List.mem_cons_self
    obtain ⟨e, he, rfl⟩ := List.mem_map.mp hkey
    obtain ⟨hmem, hfor⟩ := Roll.mem_listing he
    exact ⟨e, hmem, hfor, rfl⟩
  · obtain ⟨scopes, hfind⟩ := h.named hid
    obtain ⟨e, he, hstored⟩ := hroll.of_find hfind
    obtain ⟨rfl, -⟩ := (Stored.mk.injEq ..).mp hstored
    have hat := List.find?_some he
    exact ⟨e, List.mem_of_find?_eq_some he, (Bool.and_eq_true_iff.mp hat).1, rfl⟩

end KeyStore

namespace Grant.Findings

variable {d : Findings} {g : Grant} {r : AccessRequest} {s : Site} {roll : Roll}
  {strategy : Scope.Strategy}

structure Licensed (d : Findings) (s : Site) (strategy : Scope.Strategy)
    (requested : List Text) : Prop where
  stored : ∃ stored, s.keys.find s.cache (.str d.issuer) (.str d.subject) d.keyId = .ok stored ∧
    ∀ scope ∈ requested, strategy.coversIn (.arr stored.scopes) scope = .ok true
  entry : ∀ roll, s.keys.Filled s.cache roll → ∃ e ∈ roll,
    e.isFor s.keys.isShared d.issuer d.subject = true ∧ e.key.jwk = d.key ∧
      ∀ scope ∈ requested, strategy.covers e.scopes scope = true

theorem Verified.entry_of_find (hverified : d.Verified g s) (hroll : s.keys.Filled s.cache roll)
    {stored : KeyStore.Stored}
    (hfind : s.keys.find s.cache (.str d.issuer) (.str d.subject) d.keyId = .ok stored) :
    ∃ e ∈ roll, e.isFor s.keys.isShared d.issuer d.subject = true ∧ e.key.jwk = d.key ∧
      stored.scopes = e.scopesJson := by
  obtain ⟨e, he, hfor, hkey⟩ := hverified.resolved.exists_entry hroll
  have hid : d.keyId = .str e.key.keyId := by
    unfold keyId
    rw [← hkey, e.key.id_or_empty]
  rw [hid] at hfind
  obtain ⟨e', he', rfl⟩ := hroll.of_find hfind
  have hsame := hroll.distinct.find?_of_mem he hfor
  rw [he'] at hsame
  obtain rfl := Option.some.inj hsame
  exact ⟨e', he, hfor, hkey, rfl⟩

theorem Covered.licensed (hcovered : d.Covered g r s) (hverified : d.Verified g s)
    (hrule : g.scopes = strategy.rule) : d.Licensed s strategy r.scopes := by
  obtain ⟨stored, hfind, hcovers⟩ := hcovered.scopes
  rw [hrule] at hcovers
  have hin : ∀ scope ∈ r.scopes, strategy.coversIn (.arr stored.scopes) scope = .ok true :=
    fun scope hscope => Scope.Strategy.rule_eq_ok.mp (hcovers scope hscope)
  refine ⟨⟨stored, hfind, hin⟩, fun roll hroll => ?_⟩
  obtain ⟨e, he, hfor, hkey, hscopes⟩ := hverified.entry_of_find hroll hfind
  refine ⟨e, he, hfor, hkey, fun scope hscope => ?_⟩
  have hcover := hin scope hscope
  rw [hscopes] at hcover
  exact Except.ok.inj ((Scope.Strategy.coversIn_texts e.scopes).symm.trans hcover)

end Grant.Findings
end AssertionGrant
