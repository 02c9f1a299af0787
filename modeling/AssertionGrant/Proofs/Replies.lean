import AssertionGrant.Proofs.Records

/-! What the storage of replay records answers later on. All answers come from the live records:
two storages with the same live records cannot be told apart by any calls, and one that has
acquired a live record can. -/

namespace AssertionGrant

inductive ReplayCall where
  | isUsed (jti : Text)
  | mark (jti : Text) (expiry : Instant)

def ReplayCall.jti : ReplayCall → Text
  | .isUsed jti | .mark jti _ => jti

namespace Records

variable {a a' b b' c : Records} {now : Instant} {jti : Text} {expiry : Instant}

def after (a : Records) : Except Fault (Bool × ReplayStore × Cache) → Except Fault Bool × Records
  | .error f => (.error f, a)
  | .ok (answer, store, cache) => (.ok answer, ⟨store, cache⟩)

def reply (a : Records) (now : Instant) : ReplayCall → Except Fault Bool × Records
  | .isUsed jti => a.after (a.store.isUsed a.cache now jti)
  | .mark jti expiry => a.after (a.store.mark a.cache now jti expiry)

def replies (a : Records) (now : Instant) : List (Nat × ReplayCall) → List (Except Fault Bool)
  | [] => []
  | (wait, call) :: rest =>
    let t : Instant := ⟨now.micros + wait⟩
    (a.reply t call).1 :: (a.reply t call).2.replies t rest

/-- No calls, now or later, tell the records apart. -/
def Indistinguishable (now : Instant) (a b : Records) : Prop :=
  ∀ calls, b.replies now calls = a.replies now calls

theorem Alike.holds_now (h : Alike now a b) : b.Holds now jti ↔ a.Holds now jti :=
  h.holds now jti (Int.le_refl _)

variable {P Q : Text → Prop} {live live' : Instant → Text → Prop}

structure AlikeOn (P : Text → Prop) (now : Instant) (a b : Records) : Prop where
  become : Become now a b.Holds b
  holds : ∀ t j, P j → now.micros ≤ t.micros → (b.Holds t j ↔ a.Holds t j)

theorem Become.alikeOn (h : Become now a live b)
    (hl : ∀ t j, P j → now.micros ≤ t.micros → (live t j ↔ a.Holds t j)) : AlikeOn P now a b :=
  ⟨⟨h.threshold, h.server, h.distinct, fun _ _ _ => Iff.rfl⟩,
    fun t j hj ht => (h.holds t j ht).trans (hl t j hj ht)⟩

theorem Alike.on (h : Alike now a b) : AlikeOn P now a b := Become.alikeOn h fun _ _ _ _ => Iff.rfl

theorem AlikeOn.alike (h : AlikeOn (fun _ => True) now a b) : Alike now a b :=
  ⟨h.become.threshold, h.become.server, h.become.distinct, fun t j => h.holds t j trivial⟩

theorem AlikeOn.meet (h : AlikeOn P now c a) (h' : AlikeOn P now c b) : AlikeOn P now a b where
  become :=
    ⟨h'.become.threshold.trans h.become.threshold.symm,
      h'.become.server.trans h.become.server.symm, h'.become.distinct, fun _ _ _ => Iff.rfl⟩
  holds t j hj ht := (h'.holds t j hj ht).trans (h.holds t j hj ht).symm

theorem AlikeOn.join (h : AlikeOn P now a b) (h' : AlikeOn Q now a b) (hPQ : ∀ j, P j ∨ Q j) :
    Alike now a b := by
  refine ⟨h.become.threshold, h.become.server, h.become.distinct, fun t j ht => ?_⟩
  rcases hPQ j with hj | hj
  · exact h.holds t j hj ht
  · exact h'.holds t j hj ht

theorem AlikeOn.after (h : AlikeOn P now a b) (ha : Become now a live a')
    (hb : Become now b live' b')
    (hl : ∀ t j, P j → now.micros ≤ t.micros → (live' t j ↔ live t j)) : AlikeOn P now a' b' where
  become :=
    ⟨hb.threshold.trans (h.become.threshold.trans ha.threshold.symm),
      hb.server.trans (h.become.server.trans ha.server.symm), hb.distinct, fun _ _ _ => Iff.rfl⟩
  holds t j hj ht := (hb.holds t j ht).trans ((hl t j hj ht).trans (ha.holds t j ht).symm)

theorem AlikeOn.alikes (h : AlikeOn P now a b) (ha : Alike now a a') (hb : Alike now b b') :
    AlikeOn P now a' b' := h.after ha hb h.holds

theorem AlikeOn.marked (h : AlikeOn P now a b)
    (ha : Marked now jti (a.store.endOf now expiry) a a')
    (hb : Marked now jti (b.store.endOf now expiry) b b') : AlikeOn P now a' b' := by
  rw [ReplayStore.endOf_congr h.become.threshold] at hb
  exact h.after ha hb fun t j hj ht => or_congr_left (h.holds t j hj ht)

/-- Alike records answer a call for one of the identifiers alike, and stay alike. -/
theorem AlikeOn.reply (hd : a.store.Distinct) (h : AlikeOn P now a b) (call : ReplayCall)
    (hj : P call.jti) :
    (b.reply now call).1 = (a.reply now call).1 ∧
      (a.reply now call).2.store.Distinct ∧
      AlikeOn P now (a.reply now call).2 (b.reply now call).2 := by
  have hholds : b.Holds now call.jti ↔ a.Holds now call.jti :=
    h.holds now _ hj (Int.le_refl _)
  have hdown := h.become.down
  cases call with
  | isUsed jti =>
    change b.Holds now jti ↔ a.Holds now jti at hholds
    unfold Records.reply
    dsimp only
    rcases isUsed_cases hd now jti with ⟨hdown, e⟩ | ⟨hup, used, a', e, hu, ha⟩ <;>
    rcases isUsed_cases h.become.distinct now jti with
      ⟨hdown', e'⟩ | ⟨hup', used', b', e', hu', hb⟩
    · rw [e, e']
      exact ⟨rfl, hd, h⟩
    · tauto
    · tauto
    · rw [e, e']
      have hsame : used' = used := Bool.eq_iff_iff.mpr (hu'.trans (hholds.trans hu.symm))
      exact ⟨congrArg Except.ok hsame, ha.distinct, h.alikes ha hb⟩
  | mark jti expiry =>
    change b.Holds now jti ↔ a.Holds now jti at hholds
    unfold Records.reply
    dsimp only
    rcases mark_cases hd now jti expiry with
      ⟨hc, e⟩ | ⟨hup, hh, a', e, ha⟩ | ⟨hup, hh, a', e, ha⟩ <;>
    rcases mark_cases h.become.distinct now jti expiry with
      ⟨hc', e'⟩ | ⟨hup', hh', b', e', hb'⟩ | ⟨hup', hh', b', e', hb'⟩
    · rw [e, e']
      exact ⟨rfl, hd, h⟩
    · tauto
    · tauto
    · tauto
    · rw [e, e']
      exact ⟨rfl, ha.distinct, h.alikes ha hb'⟩
    · tauto
    · tauto
    · tauto
    · rw [e, e']
      exact ⟨rfl, ha.distinct, h.marked ha hb'⟩

theorem Alike.reply (hd : a.store.Distinct) (h : Alike now a b) (call : ReplayCall) :
    (b.reply now call).1 = (a.reply now call).1 ∧
      (a.reply now call).2.store.Distinct ∧
      Alike now (a.reply now call).2 (b.reply now call).2 := by
  have hon : AlikeOn (fun _ => True) now a b := h.on
  obtain ⟨hanswer, hdistinct, hreplied⟩ := hon.reply hd call trivial
  exact ⟨hanswer, hdistinct, hreplied.alike⟩

theorem reply_alikeOn (hd : a.store.Distinct) (call : ReplayCall)
    (h : ∀ expiry, call = .mark jti expiry → a.Holds now jti) :
    AlikeOn (· = jti) now a (a.reply now call).2 := by
  have hsame : AlikeOn (· = jti) now a a := (Alike.refl hd).on
  cases call with
  | isUsed j =>
    unfold reply
    dsimp only
    rcases isUsed_cases hd now j with ⟨-, e⟩ | ⟨-, used, b, e, -, hb⟩ <;> rw [e]
    · exact hsame
    · exact hb.on
  | mark j expiry =>
    unfold reply
    dsimp only
    rcases mark_cases hd now j expiry with
      ⟨-, e⟩ | ⟨-, -, b, e, hb⟩ | ⟨-, hfresh, b, e, hb⟩ <;> rw [e]
    · exact hsame
    · exact hb.on
    · refine Become.alikeOn hb fun t i hi _ => or_iff_left ?_
      rintro ⟨rfl, -⟩
      subst hi
      exact hfresh (h expiry rfl)

theorem Alike.indistinguishable (hd : a.store.Distinct) (h : Alike now a b) :
    Indistinguishable now a b := by
  intro calls
  induction calls generalizing a b now with
  | nil => rfl
  | cons head rest ih =>
    obtain ⟨wait, call⟩ := head
    have hlater : Alike ⟨now.micros + wait⟩ a b := by
      have := h.later (t := ⟨now.micros + wait⟩) (by simp only; omega)
      exact this
    obtain ⟨hanswer, hd', h'⟩ := hlater.reply hd call
    unfold replies
    dsimp only
    rw [hanswer, ih hd' h']

theorem Marked.distinguishable {until_ : Instant} (hd : a.store.Distinct) (hup : ¬ a.Down)
    (hn : ¬ a.Holds now jti) (hu : now.micros < until_.micros) (h : Marked now jti until_ a b) :
    ¬ Indistinguishable now a b := by
  intro hi
  have hup' : ¬ b.Down := fun hdown => hup (h.down.mp hdown)
  have hb : b.Holds now jti := (h.holds now jti (Int.le_refl _)).mpr (.inr ⟨rfl, hu⟩)
  have e := hi [(0, .isUsed jti)]
  have hnow : (⟨now.micros + (0 : Nat)⟩ : Instant) = now := by simp
  unfold replies at e
  rw [hnow] at e
  unfold reply at e
  dsimp only at e
  rcases isUsed_cases hd now jti with ⟨hdown, -⟩ | ⟨-, used, a', ea, hua, -⟩
  · exact hup hdown
  rcases isUsed_cases h.distinct now jti with ⟨hdown, -⟩ | ⟨-, used', b', eb, hub, -⟩
  · exact hup' hdown
  rw [ea, eb] at e
  obtain rfl : used' = used := by
    have := (List.cons.inj e).1
    exact Except.ok.inj this
  exact hn (hua.mp (hub.mpr hb))

end Records
end AssertionGrant
