import AssertionGrant.Proofs.Faults

/-! Which key is found for a token, whatever kinds of keys are registered. The keys are tried in the
order of the store; one that does not verify the token is passed over, and the first that verifies it
is found. A key can also end the search with a fault: only a private RSA key and a secret that is taken
for a key file do, and they hide the keys behind them. -/

namespace AssertionGrant
open Act

namespace Signer

variable {t : Compact} {issuer subject : Text} {s s' : Site} {e : Fault} {q : Refusal}
  {debug : Option Text} {v : Option (Except Fault (Jwk × Fields))}

theorem concluded_eq_ok {found : Jwk × Fields} :
    concluded issuer subject debug v = .ok found ↔ v = some (.ok found) := by
  rcases v with _ | (e | found) <;> simp [concluded, Except.mapError]

theorem concluded_eq_fault :
    concluded issuer subject debug v = .error (.fault e) ↔ v = some (.error e) := by
  rcases v with _ | (e | found) <;> simp [concluded, Except.mapError]

theorem concluded_eq_refusal :
    concluded issuer subject debug v = .error (.refusal q) ↔
      v = none ∧ notFound issuer subject debug = q := by
  rcases v with _ | (e | found) <;> simp [concluded, Except.mapError]

theorem live_after (hlive : s.Live) (hkey : s.disturbances.key = none)
    (hkeys : s.disturbances.keys = none) (t : Compact) (issuer subject : Text) :
    (s.after (callFor t issuer subject)).Live := by
  unfold callFor
  split
  · change (called s (.keys issuer subject) s.disturbances.keys).Live
    rw [hkeys]
    exact hlive
  · change (called s (.key issuer subject _) s.disturbances.key).Live
    rw [hkey]
    exact hlive

theorem outcome_lookUp_fails {α : Type} {x : Act α} (entry : Text → LogEntry)
    (k : α → Act (Jwk × Fields)) (hx : x.outcome s = (.error (.fault e), s')) :
    ∃ s'', (tryCatch x (lookupFailed issuer subject entry) >>= k).outcome s =
      (.error (.refusal (notFound issuer subject (some (Failure.fault e).text))), s'') := by
  rw [outcome_bind, outcome_tryCatch, hx]
  exact ⟨_, rfl⟩

end Signer

variable [Json.Nesting]

def Site.candidates (s : Site) (t : Compact) (issuer subject : Text) : List Jwk :=
  if (Assertion.keyId t).isEmpty then
    (s.keys.list s.cache (.str issuer) (.str subject)).toOption.getD []
  else
    (s.keys.find s.cache (.str issuer) (.str subject) (.str (Assertion.keyId t))).toOption.toList.map
      (·.key)

namespace Signer

variable {t : Compact} {allowed : List Text} {issuer subject : Text} {s s' : Site}
  {keys : List Jwk} {key : Jwk} {payload : Fields} {e : Fault} {q : Refusal}

/-- A key is tried: none before it does more than fail to verify the token. -/
def Tried (t : Compact) (allowed : List Text) (keys : List Jwk) (key : Jwk) : Prop :=
  ∃ before after, keys = before ++ key :: after ∧
    ∀ d ∈ before, ∃ q, Assertion.verify t d.material allowed = .error (.refusal q)

section Trial

def trial (t : Compact) (allowed : List Text) (key : Jwk) : Option (Except Fault (Jwk × Fields)) :=
  match Assertion.verify t key.material allowed with
  | .ok payload => some (.ok (key, payload))
  | .error (.refusal _) => none
  | .error (.fault e) => some (.error e)

theorem trial_eq_none : trial t allowed key = none ↔
    ∃ q, Assertion.verify t key.material allowed = .error (.refusal q) := by
  unfold trial
  rcases Assertion.verify t key.material allowed with (q | e) | payload <;> simp

theorem trial_eq_ok {found : Jwk} : trial t allowed key = some (.ok (found, payload)) ↔
    key = found ∧ Assertion.verify t key.material allowed = .ok payload := by
  unfold trial
  rcases Assertion.verify t key.material allowed with (q | e) | payload <;> simp

theorem trial_eq_error : trial t allowed key = some (.error e) ↔
    Assertion.verify t key.material allowed = .error (.fault e) := by
  unfold trial
  rcases Assertion.verify t key.material allowed with (q | e) | payload <;> simp

theorem verdict_map_some (keys : List Jwk) :
    verdict t allowed (keys.map some) = keys.findSome? (trial t allowed) := by
  induction keys with
  | nil => rfl
  | cons key keys ih =>
    rw [List.map_cons, verdict, List.findSome?_cons, ih]
    unfold trial
    rcases Assertion.verify t key.material allowed with (q | e) | payload <;> rfl

/-- The verdict on some keys is that on the first of them that is tried and does not just fail. -/
theorem verdict_eq_some {r : Except Fault (Jwk × Fields)} :
    verdict t allowed (keys.map some) = some r ↔
      ∃ key, Tried t allowed keys key ∧ trial t allowed key = some r := by
  rw [verdict_map_some, List.findSome?_eq_some_iff]
  simp only [trial_eq_none]
  constructor
  · rintro ⟨before, key, after, hkeys, hkey, hbefore⟩
    exact ⟨key, ⟨before, after, hkeys, hbefore⟩, hkey⟩
  · rintro ⟨key, ⟨before, after, hkeys, hbefore⟩, hkey⟩
    exact ⟨before, key, after, hkeys, hkey, hbefore⟩

theorem verdict_eq_none : verdict t allowed (keys.map some) = none ↔
    ∀ key ∈ keys, ∃ q, Assertion.verify t key.material allowed = .error (.refusal q) := by
  rw [verdict_map_some, List.findSome?_eq_none_iff]
  simp only [trial_eq_none]

end Trial

section Undisturbed

theorem offers_cases (hkey : s.disturbances.key = none) (hkeys : s.disturbances.keys = none)
    (t : Compact) (issuer subject : Text) :
    s.offers t issuer subject = .ok (some ((s.candidates t issuer subject).map some)) ∨
      s.candidates t issuer subject = [] ∧ ∃ e, s.offers t issuer subject = .error (.fault e) := by
  unfold Site.offers Site.candidates Site.keysAt Site.keyAt Disturbance.answer
  rw [hkey, hkeys]
  split
  · cases s.keys.list s.cache (.str issuer) (.str subject) with
    | ok keys => exact .inl rfl
    | error e => exact .inr ⟨rfl, e, rfl⟩
  · cases s.keys.find s.cache (.str issuer) (.str subject) (.str (Assertion.keyId t)) with
    | ok stored => exact .inl rfl
    | error e => exact .inr ⟨rfl, e, rfl⟩

theorem outcome_find_fails (allowed : List Text) (hlive : s.Live)
    (h : s.offers t issuer subject = .error (.fault e)) :
    ∃ debug s', (find t allowed issuer subject).outcome s =
      (.error (.refusal (notFound issuer subject debug)), s') := by
  refine ⟨some (Failure.fault e).text, ?_⟩
  unfold Site.offers at h
  unfold find
  dsimp only
  cases hid : (Assertion.keyId t).isEmpty with
  | true =>
    rw [hid] at h
    have hfails := outcome_publicKeys s issuer subject
    rw [show s.keysAt issuer subject = .error (.fault e) from h] at hfails
    change ∃ s', (checkContext >>= fun _ => _).outcome s = (_, s')
    rw [outcome_bind, gives_checkContext hlive]
    exact outcome_lookUp_fails _ _ hfails
  | false =>
    rw [hid] at h
    have hfails := outcome_publicKey s issuer subject (Assertion.keyId t)
    cases hgiven : s.keyAt issuer subject (Assertion.keyId t) with
    | ok given =>
      rw [hgiven] at h
      cases h
    | error f =>
      rw [hgiven] at h
      rw [hgiven, Except.error.inj h] at hfails
      change ∃ s', (checkContext >>= fun _ => _).outcome s = (_, s')
      rw [outcome_bind, gives_checkContext hlive]
      exact outcome_lookUp_fails _ _ hfails

theorem outcome_find_candidates (t : Compact) (allowed : List Text) (issuer subject : Text)
    (hlive : s.Live) (hkey : s.disturbances.key = none) (hkeys : s.disturbances.keys = none) :
    ∃ debug s', (find t allowed issuer subject).outcome s =
      (concluded issuer subject debug
        (verdict t allowed ((s.candidates t issuer subject).map some)), s') := by
  rcases offers_cases hkey hkeys t issuer subject with hoffers | ⟨hnone, e, hoffers⟩
  · exact outcome_find allowed hlive hoffers (live_after hlive hkey hkeys t issuer subject)
  · rw [hnone]
    exact outcome_find_fails allowed hlive hoffers

end Undisturbed

section Tried

theorem Tried.mem (h : Tried t allowed keys key) : key ∈ keys := by
  obtain ⟨before, after, rfl, -⟩ := h
  exact List.mem_append_right _ (List.mem_cons_self ..)

theorem exists_tried_ok
    (hquiet : ∀ key ∈ keys, ∀ e, Assertion.verify t key.material allowed ≠ .error (.fault e)) :
    (∃ key payload, Tried t allowed keys key ∧
        Assertion.verify t key.material allowed = .ok payload) ↔
      ∃ key ∈ keys, ∃ payload, Assertion.verify t key.material allowed = .ok payload := by
  constructor
  · rintro ⟨key, payload, htried, hkey⟩
    exact ⟨key, htried.mem, payload, hkey⟩
  · rintro ⟨key, hmem, payload, hkey⟩
    cases hv : verdict t allowed (keys.map some) with
    | none =>
      obtain ⟨q, hq⟩ := verdict_eq_none.mp hv key hmem
      rw [hkey] at hq
      cases hq
    | some r =>
      obtain ⟨first, htried, hr⟩ := verdict_eq_some.mp hv
      rcases r with e | ⟨found, payload'⟩
      · exact absurd (trial_eq_error.mp hr) (hquiet first htried.mem e)
      · exact ⟨first, payload', htried, (trial_eq_ok.mp hr).2⟩

end Tried

/-- Which key is found, and what else can come of the search. A key is found exactly if it verifies
the token and each key before it just fails to; so where no key is at fault, one is found whenever
there is one that verifies the token. A key that is at fault ends the search when it is tried, as a
private RSA key does on a token that asks for an RSA algorithm. Otherwise the token is refused. -/
theorem find_decided (t : Compact) (allowed : List Text) (issuer subject : Text)
    (hlive : s.Live) (hkey : s.disturbances.key = none) (hkeys : s.disturbances.keys = none) :
    ∃ r s', (find t allowed issuer subject).outcome s = (r, s') ∧
      (∀ found payload, r = .ok (found, payload) ↔
        Tried t allowed (s.candidates t issuer subject) found ∧
          Assertion.verify t found.material allowed = .ok payload) ∧
      ((∀ key ∈ s.candidates t issuer subject, ∀ e,
          Assertion.verify t key.material allowed ≠ .error (.fault e)) →
        ((∃ found, r = .ok found) ↔ ∃ key ∈ s.candidates t issuer subject, ∃ payload,
          Assertion.verify t key.material allowed = .ok payload)) ∧
      (∀ e, r = .error (.fault e) ↔ ∃ key, Tried t allowed (s.candidates t issuer subject) key ∧
        Assertion.verify t key.material allowed = .error (.fault e)) ∧
      (∀ q, r = .error (.refusal q) → ∃ debug, q = notFound issuer subject debug) ∧
      (∀ key : Jwk, ∀ e, Assertion.verify t key.material allowed = .error (.fault e) →
        ¬ key.material.IsTame) ∧
      (∀ pair e, Assertion.verify t (.rsaPrivate pair) allowed = .error (.fault e) ↔
        t.checkAttached = .ok () ∧ (∃ alg, t.algorithm allowed = .ok alg ∧ alg.IsRsa) ∧
          e = ⟨.wrongObject, KeyFault.wrongHalf.message⟩) ∧
      ∃ made, made <+: [callFor t issuer subject] ∧ s'.calls = s.calls ++ made := by
  obtain ⟨debug, s', h⟩ := outcome_find_candidates t allowed issuer subject hlive hkey hkeys
  have hfound (found : Jwk) (payload : Fields) :
      concluded issuer subject debug
          (verdict t allowed ((s.candidates t issuer subject).map some)) = .ok (found, payload) ↔
        Tried t allowed (s.candidates t issuer subject) found ∧
          Assertion.verify t found.material allowed = .ok payload := by
    rw [concluded_eq_ok, verdict_eq_some]
    simp only [trial_eq_ok]
    constructor
    · rintro ⟨key, htried, rfl, hverify⟩
      exact ⟨htried, hverify⟩
    · rintro ⟨htried, hverify⟩
      exact ⟨found, htried, rfl, hverify⟩
  refine ⟨_, s', h, hfound, fun hquiet => ?_, fun e => ?_, fun q hq => ?_, fun key e he htame => ?_,
    fun pair e => Assertion.verify_rsaPrivate t allowed pair, ?_⟩
  · rw [Prod.exists, ← exists_tried_ok hquiet]
    simp only [hfound]
  · rw [concluded_eq_fault, verdict_eq_some]
    simp only [trial_eq_error]
  · exact ⟨debug, (concluded_eq_refusal.mp hq).2.symm⟩
  · obtain ⟨q, hq⟩ := Assertion.verify_refuses htame he
    cases hq
  · rcases gives_or_fails (find t allowed issuer subject) s with ⟨found, s₁, hg⟩ | ⟨f, s₁, hf⟩
    · obtain ⟨-, rfl⟩ := Prod.mk.inj (h.symm.trans hg)
      exact ⟨_, List.prefix_rfl, makes_find.gives hg⟩
    · obtain ⟨-, rfl⟩ := Prod.mk.inj (h.symm.trans hf)
      exact makes_find.fails hf

end Signer
end AssertionGrant

namespace AssertionGrant.Specimen
open Act Signer

theorem ok_of_toOption {ε α : Type} {x : Except ε α} {a : α} (h : x.toOption = some a) :
    x = .ok a := by
  cases x with
  | ok b => rw [Option.some.inj h]
  | error e => cases h

def token : Compact := (Assertion.parse raw).toOption.get (by decide +kernel)

def firstKey : Jwk :=
  { privateKey with fields := ("kid", .str "j") :: privateKey.fields.filter fun f => f.1 ≠ "kid" }

def hidingSite : Site where
  now := ⟨0⟩
  keys := .memory
    [⟨.str "i", .str "s", .str "j", firstKey, []⟩, ⟨.str "i", .str "s", .str "k", key, []⟩]

theorem signer_hidden : ∃ payload, Assertion.verify token key.material ["RS256"] = .ok payload ∧
    ((find token ["RS256"] "i" "s").outcome site).1 = .ok (key, payload) ∧
    key ∈ hidingSite.candidates token "i" "s" ∧
    ((find token ["RS256"] "i" "s").outcome hidingSite).1 =
      .error (.fault ⟨.wrongObject, "the key cannot be used for this operation"⟩) := by
  obtain ⟨hunnamed, hattached, halgorithm, hverify⟩ :
      (Assertion.keyId token).isEmpty = true ∧ token.checkAttached.toOption = some () ∧
        (token.algorithm ["RS256"]).toOption = some (.rsa .sha256) ∧
        (Assertion.verify token key.material ["RS256"]).toOption.isSome = true := by
    decide +kernel
  obtain ⟨payload, hverify⟩ := Option.isSome_iff_exists.mp hverify
  have hverify := ok_of_toOption hverify
  have hcandidates : site.candidates token "i" "s" = [key] := by
    unfold Site.candidates
    rw [if_pos hunnamed]
    rfl
  have hhiding : hidingSite.candidates token "i" "s" = [firstKey, key] := by
    unfold Site.candidates
    rw [if_pos hunnamed]
    rfl
  obtain ⟨r, s', h, hfound, -⟩ :=
    find_decided (s := site) token ["RS256"] "i" "s" nofun rfl rfl
  obtain ⟨r', s'', h', -, -, hfault, -, -, hprivate, -⟩ :=
    find_decided (s := hidingSite) token ["RS256"] "i" "s" nofun rfl rfl
  rw [hcandidates] at hfound
  rw [hhiding] at hfault
  refine ⟨payload, hverify, ?_, ?_, ?_⟩
  · rw [h]
    exact (hfound key payload).mpr ⟨⟨[], [], rfl, nofun⟩, hverify⟩
  · rw [hhiding]
    exact List.mem_cons_of_mem _ (List.mem_cons_self ..)
  · rw [h']
    refine (hfault _).mpr ⟨firstKey, ⟨[], [key], rfl, nofun⟩, ?_⟩
    exact (hprivate _ _).mpr
      ⟨ok_of_toOption hattached, ⟨_, ok_of_toOption halgorithm, trivial⟩, rfl⟩

end AssertionGrant.Specimen
