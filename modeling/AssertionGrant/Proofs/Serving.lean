import AssertionGrant.Proofs.Asymmetric
import AssertionGrant.Proofs.Credentials
import AssertionGrant.Proofs.Tenants
import AssertionGrant.Proofs.Words
import AssertionGrant.Server

/-! The server around the endpoint. Nothing but a post to the path of the endpoint touches its site.
Its one client is let in with its own name and secret and with no others. When it starts, its settings
have passed their check, and nothing but its stores is new. -/

namespace AssertionGrant

namespace Routing

variable {α : Type} {routes : List (Route α)} {method path : String} {v : α}

theorem partsOf_injective : Function.Injective partsOf := by
  intro p q h
  have h : p.splitOn '/' = q.splitOn '/' := by
    simpa only [partsOf, Splitting.pieces, Splitting.piecesBetween_eq, List.splitOn_eq_splitOnP]
      using h
  simpa only [List.intercalate_splitOn] using congrArg (['/'].intercalate ·) h

theorem find_eq_view {path : List Char} : find routes method path = .view v ↔
    ∃ route, routes.find? (fun route => route.parts == partsOf path && route.methods.contains method) =
      some route ∧ route.view = v := by
  have hfind : (routes.filter (·.parts == partsOf path)).find? (·.methods.contains method) =
      routes.find? fun route => route.parts == partsOf path && route.methods.contains method := by
    rw [List.find?_filter]
    simp only [Bool.decide_and, Bool.decide_eq_true]
  unfold find
  dsimp only
  rw [hfind]
  split
  · next route h => rw [h]; simp
  · next h =>
    rw [h]
    split
    · simp
    split
    · simp
    split <;> simp

theorem dispatch_eq_answered : dispatch routes method path = .answered v ↔
    method ≠ "OPTIONS" ∧ ∃ route, routes.find? (fun route =>
      route.parts == partsOf (rooted path) && route.methods.contains method) = some route ∧
        route.view = v := by
  rw [← find_eq_view]
  unfold dispatch
  dsimp only
  cases find routes method (rooted path) with
  | view w => by_cases h : method = "OPTIONS" <;> simp [h]
  | file => by_cases h : method = "OPTIONS" <;> simp [h]
  | slashMissing => simp
  | nothing known =>
    simp only [reduceCtorEq, and_false, iff_false]
    split
    · split <;> simp
    · simp

theorem dispatch_eq_first {address : List Char} (hrest : ∀ route ∈ routes, route.view ≠ v) :
    dispatch (⟨partsOf address, ["OPTIONS", "POST"], v⟩ :: routes) method path = .answered v ↔
      method = "POST" ∧ rooted path = address := by
  have hparts : partsOf address = partsOf (rooted path) ↔ rooted path = address :=
    partsOf_injective.eq_iff.trans eq_comm
  rw [dispatch_eq_answered, List.find?_cons, ← hparts]
  constructor
  · rintro ⟨hasks, route, hroute, hview⟩
    split at hroute
    · next h =>
      obtain ⟨h, hmethod⟩ := Bool.and_eq_true_iff.mp h
      exact ⟨by simpa [hasks] using hmethod, beq_iff_eq.mp h⟩
    · exact absurd hview (hrest route (List.mem_of_find?_eq_some hroute))
  · rintro ⟨rfl, h⟩
    rw [h, beq_self_eq_true]
    exact ⟨by decide, _, rfl, rfl⟩

end Routing

theorem Endpoint.serve_cases [Json.Nesting] (e : Endpoint) {rule : String} {routes : List (Route Unit)}
    (h : Endpoint.routes rule = .ok routes) (id : Text) (r : HttpRequest) :
    (r.method = "POST" ∧ Routing.rooted r.path = Routing.merged rule.toList) ∧
        e.serve routes id r = e.view id r ∨
      ¬ (r.method = "POST" ∧ Routing.rooted r.path = Routing.merged rule.toList) ∧
        ∃ response, e.serve routes id r = pure response := by
  have hroutes : routes =
      [⟨Routing.partsOf (Routing.merged rule.toList), ["OPTIONS", "POST"], ()⟩] := by
    unfold Endpoint.routes Routing.route? at h
    split at h
    · next hroute =>
      split at hroute
      · obtain rfl := Option.some.inj hroute
        exact (Except.ok.inj h).symm
      · cases hroute
    · cases h
  have hposted : Routing.dispatch routes r.method r.path = .answered () ↔
      r.method = "POST" ∧ Routing.rooted r.path = Routing.merged rule.toList := by
    rw [hroutes]
    exact Routing.dispatch_eq_first nofun
  rw [← hposted]
  unfold Endpoint.serve
  split
  · next hanswered => exact .inl ⟨hanswered, rfl⟩
  all_goals
    next hother =>
    rw [hother]
    exact .inr ⟨nofun, _, rfl⟩

theorem Issuer.of_check {issuer issuer' : Issuer} (h : issuer.check = .ok issuer') :
    issuer'.name ≠ [] ∧ issuer' = issuer := by
  unfold Issuer.check at h
  split at h
  · cases h
  · next hname =>
    obtain rfl := Except.ok.inj h
    exact ⟨fun e => hname (List.isEmpty_iff.mpr e), rfl⟩

namespace Server

theorem routes_eq : routes =
    [⟨Routing.partsOf tokenPath.toList, ["OPTIONS", "POST"], .token⟩,
      ⟨Routing.partsOf keysPath.toList, ["OPTIONS", "GET", "HEAD"], .keys⟩] := by
  unfold routes Routing.route?
  rw [if_pos (by decide +kernel), if_pos (by decide +kernel)]
  rfl

def AsksForToken (r : HttpRequest) : Prop :=
  r.method = "POST" ∧ Routing.rooted r.path = tokenPath.toList

theorem dispatch_eq_token {r : HttpRequest} :
    Routing.dispatch routes r.method r.path = .answered .token ↔ AsksForToken r := by
  rw [routes_eq]
  exact Routing.dispatch_eq_first (List.forall_mem_singleton.mpr nofun)

theorem authenticate_header {name secret given givenSecret : String} {r : HttpRequest}
    (h : ':' ∉ given.toList) (hr : r.authorization = some (Credentials.header given givenSecret)) :
    authenticate name secret r = .ok (if given = name ∧ givenSecret = secret then
      some { id := name, grantTypes := [grantType] } else none) := by
  unfold authenticate
  rw [hr, Option.map_some, Credentials.ofHeader_header givenSecret h]
  have hthose : (Credentials.mk (some given) (some givenSecret)).areThose name secret = true ↔
      given = name ∧ givenSecret = secret := by
    unfold Credentials.areThose
    simp [Text.ofString_inj]
  simp only [hthose]

variable [Json.Nesting]

/-- A post to the path of the token endpoint is answered by the endpoint, and every other request with
no regard to the site, which it leaves as it was. -/
theorem serve_cases (s : Server) (id : Text) (r : HttpRequest) :
    AsksForToken r ∧ s.serve id r = s.endpoint.view id r ∨
      ¬ AsksForToken r ∧ ∃ response, s.serve id r = pure response := by
  by_cases hasks : AsksForToken r
  · refine .inl ⟨hasks, ?_⟩
    have hbody (response : HttpResponse) : bodiless r response = response := by
      unfold bodiless
      rw [hasks.1, if_neg (by decide)]
    unfold serve
    rw [dispatch_eq_token.mpr hasks]
    simp only [hbody, bind_pure]
  · refine .inr ⟨hasks, ?_⟩
    unfold serve
    split
    · next h => exact absurd (dispatch_eq_token.mp h) hasks
    all_goals exact ⟨_, pure_bind _ _⟩

theorem server_of_trust {keys keys' : KeyStore} {cache cache' : Cache} {entry : Json}
    (h : trust keys cache entry = .ok (keys', cache')) : ∃ fields, cache' = { cache with fields } := by
  unfold trust at h
  split at h
  · obtain ⟨_, -, h⟩ := bind_eq_ok.mp h
    obtain ⟨_, -, h⟩ := bind_eq_ok.mp h
    obtain ⟨_, -, h⟩ := bind_eq_ok.mp h
    obtain ⟨_, -, h⟩ := bind_eq_ok.mp h
    exact KeyStore.fields_of_add h
  · cases h

theorem server_of_trustAll {keys keys' : KeyStore} {cache cache' : Cache} {trusted : Option Text}
    (h : trustAll keys cache trusted = .ok (keys', cache')) :
    ∃ fields, cache' = { cache with fields } := by
  have hall (entries : List Json) : ∀ keys cache,
      entries.foldlM (fun kept entry => trust kept.1 kept.2 entry) (keys, cache) =
        .ok (keys', cache') → ∃ fields, cache' = { cache with fields } := by
    induction entries with
    | nil =>
      rintro keys cache ⟨⟩
      exact ⟨_, rfl⟩
    | cons entry entries ih =>
      intro keys cache h
      rw [List.foldlM_cons] at h
      obtain ⟨⟨keys₁, cache₁⟩, hentry, h⟩ := bind_eq_ok.mp h
      obtain ⟨_, rfl⟩ := server_of_trust hentry
      obtain ⟨fields, e⟩ := ih _ _ h
      exact ⟨fields, e⟩
  unfold trustAll at h
  split at h
  · cases h
    exact ⟨_, rfl⟩
  split at h
  · cases h
  split at h
  · cases h
  · exact hall _ _ _ h

/-- A server that starts has an issuer with a name and the settings of its environment, which have
passed their check. Nothing but its stores is new on the site, and nothing but hashes on the shared
server. -/
theorem of_start {env : Environment} {key : Crypto.Rsa.PrivateKey} {trusted : Option Text}
    {site site' : Site} {s : Server} (h : start env key trusted site = .ok (s, site')) :
    s.endpoint.grant.issuer.name ≠ [] ∧
      Settings.ofEnvironment Settings.defaultLead env = .ok s.endpoint.grant.settings ∧
      s.endpoint.grant.settings.check = .ok s.endpoint.grant.settings ∧
      ∃ keys replays fields,
        site' = { site with keys, replays, cache := { site.cache with fields } } := by
  unfold start at h
  dsimp only at h
  split at h
  · cases h
  obtain ⟨settings, hsettings, h⟩ := bind_eq_ok.mp h
  obtain ⟨⟨keys, cache⟩, htrust, h⟩ := bind_eq_ok.mp h
  obtain ⟨issuer, hissuer, h⟩ := bind_eq_ok.mp h
  obtain ⟨timeout, -, h⟩ := bind_eq_ok.mp h
  obtain ⟨hnamed, -⟩ := Issuer.of_check hissuer
  have hsettings := mapError_eq_ok.mp hsettings
  obtain ⟨fields, rfl⟩ := server_of_trustAll htrust
  cases h
  exact ⟨hnamed, hsettings, Settings.check_of_ofEnvironment hsettings, _, _, fields, rfl⟩

end Server
end AssertionGrant
