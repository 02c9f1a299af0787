import AssertionGrant.Proofs.Storages

/-! Why a run fails. Each call that it makes is answered, or is the last one: then the run fails with
what the gate makes of the storage's failure. A run whose calls were all answered fails on its own
account. -/

namespace AssertionGrant

/-- What a run makes of the failure of a call. -/
def StorageCall.raises (call : StorageCall) (f : Failure) : Failure :=
  match call with
  | .key issuer subject _ | .keys issuer subject =>
    if f.isServerError then f else .refusal (Signer.notFound issuer subject (some f.text))
  | .scopes .. => if f.isServerError then f else .internal f.text
  | .isUsed _ | .mark .. =>
    match f with
    | .refusal r => .refusal r
    | .fault e => .internal e.text

def failureOf {α : Type} : Except Failure α → Option Failure
  | .ok _ => none
  | .error f => some f

namespace Site
open Act

structure Advances (s s' : Site) (made : List StorageCall) : Prop where
  now : s'.now = s.now
  calls : s'.calls = s.calls ++ made
  random : s'.randomText = s.randomText
  draws : s'.draws = s.draws
  disturbances : s'.disturbances = s.disturbances
  uptime : s.disturbances = {} → s'.uptime = s.uptime

variable {s s' s'' s₀ : Site} {made more : List StorageCall} {call : StorageCall} {f : Failure}
  {V : Failure → Prop}

theorem Advances.refl (s : Site) : s.Advances s [] := ⟨rfl, by simp, rfl, rfl, rfl, fun _ => rfl⟩

theorem Advances.trans (h : s.Advances s' made) (h' : s'.Advances s'' more) :
    s.Advances s'' (made ++ more) where
  now := h'.now.trans h.now
  calls := by rw [h'.calls, h.calls, List.append_assoc]
  random := h'.random.trans h.random
  draws := h'.draws.trans h.draws
  disturbances := h'.disturbances.trans h.disturbances
  uptime hd := (h'.uptime (h.disturbances.trans hd)).trans (h.uptime hd)

theorem advances_after (s : Site) (call : StorageCall) : s.Advances (s.after call) [call] := by
  obtain ⟨uptime, context, e⟩ := s.after_eq call
  refine ⟨by rw [e], by rw [e], by rw [e], by rw [e], by rw [e], fun hd => ?_⟩
  rw [after_of_undisturbed hd]

variable [Json.Nesting]

def breaks (s : Site) : StorageCall → Option Failure
  | .key issuer subject keyId => failureOf (s.keyAt issuer subject keyId)
  | .keys issuer subject => failureOf (s.keysAt issuer subject)
  | .scopes issuer subject keyId => failureOf (s.scopesAt issuer subject keyId)
  | .isUsed jti => failureOf (s.usedAt jti)
  | .mark jti expiry => failureOf (s.markedAt jti expiry)

def Answered (s : Site) (made : List StorageCall) : Prop := ∀ call ∈ made, s.breaks call = none

theorem Answered.append (h : s.Answered made) (h' : s.Answered more) :
    s.Answered (made ++ more) := by
  intro call hcall
  exact (List.mem_append.mp hcall).elim (h call) (h' call)

inductive Ends (s : Site) (V : Failure → Prop) : List StorageCall → Failure → Prop
  | own {made : List StorageCall} {f : Failure} : s.Answered made → V f → Ends s V made f
  | broken {made : List StorageCall} {call : StorageCall} {f : Failure} :
    s.Answered made → s.breaks call = some f → Ends s V (made ++ [call]) (call.raises f)

theorem Ends.after (h : s.Answered made) (h' : s.Ends V more f) : s.Ends V (made ++ more) f := by
  cases h' with
  | own hanswered hv => exact .own (h.append hanswered) hv
  | broken hanswered hbreaks =>
    rw [← List.append_assoc]
    exact .broken (h.append hanswered) hbreaks

theorem Untouched.breaks (h : Untouched s s') (hd : s.replays.Distinct) (call : StorageCall) :
    s'.breaks call = s.breaks call := by
  cases call with
  | key issuer subject keyId => exact congrArg failureOf (h.keyAt hd keyId)
  | keys issuer subject => exact congrArg failureOf (h.keysAt hd)
  | scopes issuer subject keyId => exact congrArg failureOf (h.scopesAt hd keyId)
  | isUsed jti => exact congrArg failureOf (h.usedAt hd jti)
  | mark jti expiry => exact congrArg failureOf (h.markedAt hd jti expiry)

end Site

namespace Act

variable [Json.Nesting] {α β : Type} {x : Act α} {s₀ : Site} {V : Failure → Prop}

structure Accounts (x : Act α) (s₀ : Site) (V : Failure → Prop) : Prop where
  gives : ∀ {s a s'}, Site.Untouched s₀ s → x.Gives s a s' →
    ∃ made, s.Advances s' made ∧ s₀.Answered made
  fails : ∀ {s f s'}, Site.Untouched s₀ s → x.Fails s f s' →
    ∃ made, s.Advances s' made ∧ s₀.Ends V made f

section Rows

theorem accounts_of_idle (hidle : ∀ s : Site, s.Advances (x.outcome s).2 [])
    (hown : ∀ (s : Site) f s', x.Fails s f s' → V f) : x.Accounts s₀ V where
  gives {s a s'} _ h := by
    have hs := hidle s
    rw [h] at hs
    exact ⟨[], hs, nofun⟩
  fails {s f s'} _ h := by
    have hs := hidle s
    rw [h] at hs
    exact ⟨[], hs, .own nofun (hown s f s' h)⟩

theorem accounts_pure (a : α) : (pure a : Act α).Accounts s₀ V :=
  accounts_of_idle (fun s => .refl s) fun _ _ _ h => absurd h fails_pure

theorem accounts_throw {f : Failure} (hf : V f) : (throw f : Act α).Accounts s₀ V := by
  refine accounts_of_idle (fun s => .refl s) fun s f' s' h => ?_
  obtain ⟨he, -⟩ := Prod.mk.inj h
  rw [← Except.error.inj he]
  exact hf

theorem accounts_orFail {r : Except Failure α} (hr : ∀ f, r = .error f → V f) :
    (orFail r).Accounts s₀ V := by
  cases r with
  | ok a => exact accounts_pure a
  | error f => exact accounts_throw (hr f rfl)

theorem accounts_refusing {r : Except Refusal α} (hr : ∀ q, r = .error q → V (.refusal q)) :
    (refusing r).Accounts s₀ V := by
  cases r with
  | ok a => exact accounts_pure a
  | error q => exact accounts_throw (hr q rfl)

theorem accounts_note (entry : LogEntry) : (note entry).Accounts s₀ V := by
  refine accounts_of_idle (fun s => ?_) fun s f s' h => ?_
  · exact ⟨rfl, (List.append_nil _).symm, rfl, rfl, rfl, fun _ => rfl⟩
  · cases (Prod.mk.inj h).1

theorem accounts_get_bind {k : Site → Act α} (hk : ∀ s, (k s).Accounts s₀ V) :
    (get >>= k).Accounts s₀ V where
  gives {s a s'} hs h := by
    obtain ⟨_, _, h₁, h⟩ := gives_bind.mp h
    obtain ⟨rfl, rfl⟩ := gives_get.mp h₁
    exact (hk s).gives hs h
  fails {s f s'} hs h := by
    rcases fails_bind.mp h with h | ⟨_, _, h₁, h⟩
    · cases h
    · obtain ⟨rfl, rfl⟩ := gives_get.mp h₁
      exact (hk s).fails hs h

theorem Accounts.bind {k : α → Act β} (hx : x.Accounts s₀ V) (hq : x.Quiet)
    (hk : ∀ a, (∃ s s', Site.Untouched s₀ s ∧ x.Gives s a s') → (k a).Accounts s₀ V) :
    (x >>= k).Accounts s₀ V where
  gives {s b s'} hs h := by
    obtain ⟨a, s₁, h₁, h⟩ := gives_bind.mp h
    obtain ⟨made, hadvances, hanswered⟩ := hx.gives hs h₁
    obtain ⟨more, hadvances', hanswered'⟩ :=
      (hk a ⟨s, s₁, hs, h₁⟩).gives (hs.trans (hq.of_gives h₁)) h
    exact ⟨made ++ more, hadvances.trans hadvances', hanswered.append hanswered'⟩
  fails {s f s'} hs h := by
    rcases fails_bind.mp h with h | ⟨a, s₁, h₁, h⟩
    · exact hx.fails hs h
    -- The calls of the first step were all answered, so the second one is where the run ends.
    · obtain ⟨made, hadvances, hanswered⟩ := hx.gives hs h₁
      obtain ⟨more, hadvances', hends⟩ :=
        (hk a ⟨s, s₁, hs, h₁⟩).fails (hs.trans (hq.of_gives h₁)) h
      exact ⟨made ++ more, hadvances.trans hadvances', hends.after hanswered⟩

theorem Accounts.bind_idle {k : α → Act β} (hx : x.Accounts s₀ V)
    (hidle : ∀ a (s : Site), s.Advances ((k a).outcome s).2 [])
    (hown : ∀ a (s : Site) f s', (k a).Fails s f s' → V f) : (x >>= k).Accounts s₀ V where
  gives {s b s'} hs h := by
    obtain ⟨a, s₁, h₁, h⟩ := gives_bind.mp h
    obtain ⟨made, hadvances, hanswered⟩ := hx.gives hs h₁
    have hstill := hidle a s₁
    rw [h] at hstill
    exact ⟨made ++ [], hadvances.trans hstill, hanswered.append nofun⟩
  fails {s f s'} hs h := by
    rcases fails_bind.mp h with h | ⟨a, s₁, h₁, h⟩
    · exact hx.fails hs h
    · obtain ⟨made, hadvances, hanswered⟩ := hx.gives hs h₁
      have hstill := hidle a s₁
      rw [h] at hstill
      have hends : s₀.Ends V [] f := .own nofun (hown a s₁ f s' h)
      exact ⟨made ++ [], hadvances.trans hstill, hends.after hanswered⟩

theorem Accounts.map (hx : x.Accounts s₀ V) (k : α → β) :
    (x >>= fun a => pure (k a)).Accounts s₀ V :=
  hx.bind_idle (fun _ s => .refl s) fun _ _ _ _ h => absurd h fails_pure

theorem accounts_call {k : Failure → Act α} (call : StorageCall) (hd : s₀.replays.Distinct)
    (hresult : ∀ s : Site, failureOf (x.outcome s).1 = s.breaks call)
    (hadvances : ∀ s : Site, s.Advances (x.outcome s).2 [call])
    (hk : ∀ f (s : Site), ∃ s', (k f).Fails s (call.raises f) s' ∧ s.Advances s' []) :
    (tryCatch x k).Accounts s₀ V where
  gives {s a s'} hs h := by
    rcases gives_tryCatch.mp h with h | ⟨f, s₁, -, h⟩
    · have hr := hresult s
      have ha := hadvances s
      rw [h] at hr ha
      refine ⟨[call], ha, fun c hc => ?_⟩
      rw [List.mem_singleton.mp hc, ← hs.breaks hd, ← hr]
      rfl
    · obtain ⟨s₂, hf, -⟩ := hk f s₁
      exact absurd hf h.not_fails
  fails {s f s'} hs h := by
    obtain ⟨f', s₁, h₁, h⟩ := fails_tryCatch.mp h
    obtain ⟨s₂, hf, ha'⟩ := hk f' s₁
    obtain ⟨hfe, rfl⟩ := Prod.mk.inj (h.symm.trans hf)
    obtain rfl := Except.error.inj hfe
    have hr := hresult s
    have ha := hadvances s
    rw [h₁] at hr ha
    have hbreaks : s₀.breaks call = some f' := by
      rw [← hs.breaks hd, ← hr]
      rfl
    have hends : s₀.Ends V ([] ++ [call]) (call.raises f') := .broken nofun hbreaks
    exact ⟨[call], ha.trans ha', hends⟩

end Rows

end Act
end AssertionGrant
