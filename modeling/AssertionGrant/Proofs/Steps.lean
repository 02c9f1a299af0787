import AssertionGrant.Site

/-! Steps at a site taken apart: what a sequence of steps gives or fails with comes from its parts,
and what every part keeps of the site the sequence keeps. -/

namespace AssertionGrant

theorem bind_eq_ok {ε α β : Type} {x : Except ε α} {k : α → Except ε β} {b : β} :
    x >>= k = .ok b ↔ ∃ a, x = .ok a ∧ k a = .ok b := by
  cases x with
  | error e => simp only [bind, Except.bind, reduceCtorEq, false_and, exists_false]
  | ok a => simp only [bind, Except.bind, Except.ok.injEq, exists_eq_left']

theorem bind_eq_error {ε α β : Type} {x : Except ε α} {k : α → Except ε β} {e : ε} :
    x >>= k = .error e ↔ x = .error e ∨ ∃ a, x = .ok a ∧ k a = .error e := by
  cases x with
  | error e' =>
    simp only [bind, Except.bind, Except.error.injEq, reduceCtorEq, false_and, exists_false,
      or_false]
  | ok a => simp only [bind, Except.bind, reduceCtorEq, false_or, Except.ok.injEq, exists_eq_left']

theorem mapError_eq_ok {ε ε' α : Type} {x : Except ε α} {k : ε → ε'} {a : α} :
    x.mapError k = .ok a ↔ x = .ok a := by
  cases x with
  | error e => exact ⟨nofun, nofun⟩
  | ok b =>
    change Except.ok b = Except.ok a ↔ _
    rw [Except.ok.injEq, Except.ok.injEq]

theorem mapError_eq_error {ε ε' α : Type} {x : Except ε α} {k : ε → ε'} {e : ε'} :
    x.mapError k = .error e ↔ ∃ e₀, x = .error e₀ ∧ k e₀ = e := by
  cases x with
  | error e₀ =>
    change Except.error (k e₀) = Except.error e ↔ _
    simp only [Except.error.injEq, exists_eq_left']
  | ok a =>
    change Except.ok a = Except.error e ↔ _
    simp only [reduceCtorEq, false_and, exists_false]

namespace Act

variable {α β : Type} {s s' : Site}

/-- The result of a step at a site, and the site that it leaves. -/
def outcome (x : Act α) (s : Site) : Except Failure α × Site := x.run s

def Gives (x : Act α) (s : Site) (a : α) (s' : Site) : Prop := x.outcome s = (.ok a, s')

def Fails (x : Act α) (s : Site) (f : Failure) (s' : Site) : Prop := x.outcome s = (.error f, s')

theorem gives_or_fails (x : Act α) (s : Site) :
    (∃ a s', x.Gives s a s') ∨ ∃ f s', x.Fails s f s' := by
  rcases h : x.outcome s with ⟨_ | _, _⟩
  · exact .inr ⟨_, _, h⟩
  · exact .inl ⟨_, _, h⟩

theorem Gives.unique {x : Act α} {a b : α} {s₁ s₂ : Site} (h : x.Gives s a s₁)
    (h' : x.Gives s b s₂) : a = b ∧ s₁ = s₂ := by
  have e := h.symm.trans h'
  simpa only [Prod.mk.injEq, Except.ok.injEq] using e

theorem Gives.not_fails {x : Act α} {a : α} {f : Failure} {s₁ s₂ : Site} (h : x.Gives s a s₁) :
    ¬ x.Fails s f s₂ := by
  intro h'
  have e := h.symm.trans h'
  simp only [Prod.mk.injEq, reduceCtorEq, false_and] at e

section Outcomes

variable (x : Act α) (s : Site)

theorem outcome_pure (a : α) : (pure a : Act α).outcome s = (.ok a, s) := rfl

theorem outcome_throw (f : Failure) : (throw f : Act α).outcome s = (.error f, s) := rfl

theorem outcome_get : (get : Act Site).outcome s = (.ok s, s) := rfl

theorem outcome_set (t : Site) : (set t : Act PUnit).outcome s = (.ok ⟨⟩, t) := rfl

theorem outcome_modify (k : Site → Site) : (modify k : Act PUnit).outcome s = (.ok ⟨⟩, k s) := rfl

theorem outcome_bind (k : α → Act β) :
    (x >>= k).outcome s = match x.outcome s with
      | (.ok a, s') => (k a).outcome s'
      | (.error f, s') => (.error f, s') := by
  change ExceptT.bindCont k (x.outcome s).1 (x.outcome s).2 = _
  rcases x.outcome s with ⟨_ | _, _⟩ <;> rfl

theorem outcome_tryCatch (k : Failure → Act α) :
    (tryCatch x k).outcome s = match x.outcome s with
      | (.ok a, s') => (.ok a, s')
      | (.error f, s') => (k f).outcome s' := by
  have run (r : Except Failure α) (t : Site) (h : x.outcome s = (r, t)) : x s = (r, t) := h
  rcases h : x.outcome s with ⟨_ | _, _⟩
  all_goals
    simp only [outcome, ExceptT.run, tryCatch, tryCatchThe, MonadExceptOf.tryCatch,
      ExceptT.tryCatch, ExceptT.mk, bind, StateT.bind, run _ _ h]
  rfl

theorem outcome_orFail (r : Except Failure α) : (orFail r).outcome s = (r, s) := by
  cases r <;> rfl

theorem outcome_refusing (r : Except Refusal α) :
    (refusing r).outcome s = (r.mapError .refusal, s) := by
  cases r <;> rfl

theorem outcome_faulting (r : Except Fault α) :
    (faulting r).outcome s = (r.mapError .fault, s) := by
  cases r <;> rfl

end Outcomes

variable {x : Act α} {f : Failure}

@[simp] theorem gives_pure {a b : α} : (pure a : Act α).Gives s b s' ↔ a = b ∧ s = s' := by
  simp only [Gives, outcome_pure, Prod.mk.injEq, Except.ok.injEq]

@[simp] theorem fails_pure {a : α} : ¬ (pure a : Act α).Fails s f s' := by
  simp only [Fails, outcome_pure, Prod.mk.injEq, reduceCtorEq, false_and, not_false_eq_true]

@[simp] theorem gives_throw {a : α} : ¬ (throw f : Act α).Gives s a s' := by
  simp only [Gives, outcome_throw, Prod.mk.injEq, reduceCtorEq, false_and, not_false_eq_true]

theorem gives_bind {k : α → Act β} {b : β} :
    (x >>= k).Gives s b s' ↔ ∃ a s₁, x.Gives s a s₁ ∧ (k a).Gives s₁ b s' := by
  unfold Gives
  rw [outcome_bind]
  rcases x.outcome s with ⟨_ | _, _⟩ <;> simp [and_assoc]

theorem fails_bind {k : α → Act β} :
    (x >>= k).Fails s f s' ↔
      x.Fails s f s' ∨ ∃ a s₁, x.Gives s a s₁ ∧ (k a).Fails s₁ f s' := by
  unfold Gives Fails
  rw [outcome_bind]
  rcases x.outcome s with ⟨_ | _, _⟩ <;> simp [and_assoc]

theorem gives_tryCatch {k : Failure → Act α} {a : α} :
    (tryCatch x k).Gives s a s' ↔
      x.Gives s a s' ∨ ∃ f s₁, x.Fails s f s₁ ∧ (k f).Gives s₁ a s' := by
  unfold Gives Fails
  rw [outcome_tryCatch]
  rcases x.outcome s with ⟨_ | _, _⟩ <;> simp [and_assoc]

theorem fails_tryCatch {k : Failure → Act α} :
    (tryCatch x k).Fails s f s' ↔ ∃ f' s₁, x.Fails s f' s₁ ∧ (k f').Fails s₁ f s' := by
  unfold Fails
  rw [outcome_tryCatch]
  rcases x.outcome s with ⟨_ | _, _⟩ <;> simp [and_assoc]

@[simp] theorem gives_get {t : Site} : (get : Act Site).Gives s t s' ↔ s = t ∧ s = s' := by
  simp only [Gives, outcome_get, Prod.mk.injEq, Except.ok.injEq]

@[simp] theorem gives_orFail {r : Except Failure α} {a : α} :
    (orFail r).Gives s a s' ↔ r = .ok a ∧ s = s' := by
  simp only [Gives, outcome_orFail, Prod.mk.injEq]

@[simp] theorem fails_orFail {r : Except Failure α} :
    (orFail r).Fails s f s' ↔ r = .error f ∧ s = s' := by
  simp only [Fails, outcome_orFail, Prod.mk.injEq]

@[simp] theorem gives_refusing {r : Except Refusal α} {a : α} :
    (refusing r).Gives s a s' ↔ r = .ok a ∧ s = s' := by
  simp only [Gives, outcome_refusing, Prod.mk.injEq, mapError_eq_ok]

@[simp] theorem gives_faulting {r : Except Fault α} {a : α} :
    (faulting r).Gives s a s' ↔ r = .ok a ∧ s = s' := by
  simp only [Gives, outcome_faulting, Prod.mk.injEq, mapError_eq_ok]

end Act
end AssertionGrant
