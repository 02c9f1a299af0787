import AssertionGrant.Proofs.Rounding
import AssertionGrant.Proofs.Shelves
import AssertionGrant.Store.Replay

/-! The replay records as a map from identifiers to ends. A store is described by the clock
readings at which an identifier has a live record: a look-up answers whether it has one, a mark
succeeds if it has none, and whatever is dropped on the way had ended. -/

namespace AssertionGrant

namespace Ledger

variable {ledger : Ledger} {now t : Instant} {jti j : Text} {expiry : Instant}

def Distinct (ledger : Ledger) : Prop := (ledger.map (·.1)).Nodup

def Holds (ledger : Ledger) (t : Instant) (jti : Text) : Prop :=
  ∃ r ∈ ledger, r.1 = jti ∧ t.micros < r.2.micros

theorem Distinct.filter (h : ledger.Distinct) (p : Text × Instant → Bool) :
    Distinct (ledger.filter p) := List.Nodup.sublist (List.filter_sublist.map _) h

theorem Distinct.purge (h : ledger.Distinct) (now : Instant) : (ledger.purge now).Distinct :=
  h.filter _

theorem Distinct.eq_of_mem (h : ledger.Distinct) {r r' : Text × Instant} (hr : r ∈ ledger)
    (hr' : r' ∈ ledger) (e : r.1 = r'.1) : r = r' := List.inj_on_of_nodup_map h hr hr' e

theorem find?_eq_none : ledger.find? jti = none ↔ ∀ r ∈ ledger, r.1 ≠ jti := by
  simp only [find?, Option.map_eq_none_iff, List.find?_eq_none, decide_eq_true_eq]

theorem mem_of_find? (h : ledger.find? jti = some expiry) : (jti, expiry) ∈ ledger := by
  obtain ⟨r, hr, rfl⟩ := Option.map_eq_some_iff.mp h
  have e : r.1 = jti := by simpa using List.find?_some hr
  subst e
  exact List.mem_of_find?_eq_some hr

theorem Distinct.holds_iff (h : ledger.Distinct) (hf : ledger.find? jti = some expiry) :
    ledger.Holds t jti ↔ t.micros < expiry.micros := by
  have hm := mem_of_find? hf
  constructor
  · rintro ⟨r, hr, e, ht⟩
    rw [h.eq_of_mem hr hm e] at ht
    exact ht
  · exact fun ht => ⟨_, hm, rfl, ht⟩

theorem not_holds_of_find?_eq_none (hf : ledger.find? jti = none) : ¬ ledger.Holds t jti := by
  rintro ⟨r, hr, e, -⟩
  exact find?_eq_none.mp hf r hr e

theorem holds_filter {p : Text × Instant → Bool}
    (hp : ∀ r ∈ ledger, p r = false → r.2.micros ≤ now.micros) (ht : now.micros ≤ t.micros) :
    Holds (ledger.filter p) t j ↔ ledger.Holds t j := by
  constructor
  · rintro ⟨r, hr, h⟩
    exact ⟨r, List.mem_of_mem_filter hr, h⟩
  · rintro ⟨r, hr, e, hl⟩
    refine ⟨r, List.mem_filter.mpr ⟨hr, ?_⟩, e, hl⟩
    by_contra hf
    have := hp r hr (by simpa using hf)
    omega

theorem holds_purge (ht : now.micros ≤ t.micros) :
    (ledger.purge now).Holds t j ↔ ledger.Holds t j := by
  refine holds_filter (fun r _ hr => ?_) ht
  simpa [isLive] using hr

theorem put_eq (jti : Text) (expiry : Instant) (ledger : Ledger) :
    put jti expiry ledger = Shelf.put Prod.fst (jti, expiry) ledger := by
  induction ledger with
  | nil => rfl
  | cons r rest ih => rw [put, Shelf.put, ih]

theorem mem_put (h : ledger.Distinct) {r : Text × Instant} :
    r ∈ put jti expiry ledger ↔ r = (jti, expiry) ∨ r ∈ ledger ∧ r.1 ≠ jti := by
  rw [put_eq]
  exact Shelf.mem_put h

theorem Distinct.put (h : ledger.Distinct) : (put jti expiry ledger).Distinct := by
  rw [put_eq]
  exact Shelf.nodup_put h _

theorem Holds.earlier (h : ledger.Holds t jti) (ht : now.micros ≤ t.micros) :
    ledger.Holds now jti := by
  obtain ⟨r, hr, e, hl⟩ := h
  exact ⟨r, hr, e, by omega⟩

theorem holds_put (h : ledger.Distinct) (hn : ¬ ledger.Holds t jti) :
    (put jti expiry ledger).Holds t j ↔ ledger.Holds t j ∨ j = jti ∧ t.micros < expiry.micros := by
  unfold Holds
  simp only [mem_put h]
  constructor
  · rintro ⟨r, rfl | ⟨hr, -⟩, e, ht⟩
    · exact .inr ⟨e.symm, ht⟩
    · exact .inl ⟨r, hr, e, ht⟩
  · rintro (⟨r, hr, e, ht⟩ | ⟨rfl, ht⟩)
    · refine ⟨r, .inr ⟨hr, fun e' => hn ⟨r, hr, e', ht⟩⟩, e, ht⟩
    · exact ⟨_, .inl rfl, rfl, ht⟩

section LookUp

theorem isUsed_fst (h : ledger.Distinct) :
    (ledger.isUsed now jti).1 = true ↔ ledger.Holds now jti := by
  unfold isUsed
  split
  · next hf => simpa using not_holds_of_find?_eq_none hf
  · next known hf =>
    rw [h.holds_iff hf]
    split
    · next hk => simpa using hk
    · next hk => simpa using hk

theorem isUsed_snd_holds (h : ledger.Distinct) (ht : now.micros ≤ t.micros) :
    (ledger.isUsed now jti).2.Holds t j ↔ ledger.Holds t j := by
  unfold isUsed
  split
  · rfl
  · next known hf =>
    split
    · next hk =>
      refine holds_filter (fun r hr he => ?_) ht
      have e : r.1 = jti := by simpa using he
      rw [h.eq_of_mem hr (mem_of_find? hf) e]
      exact hk
    · rfl

theorem Distinct.isUsed (h : ledger.Distinct) : (ledger.isUsed now jti).2.Distinct := by
  unfold Ledger.isUsed
  split
  · exact h
  · split
    · exact h.filter _
    · exact h

end LookUp

section Mark

variable {threshold : Int}

def swept (ledger : Ledger) (now : Instant) (threshold : Int) : Ledger :=
  if threshold ≤ ledger.length then ledger.purge now else ledger

theorem Distinct.swept (h : ledger.Distinct) (now : Instant) (threshold : Int) :
    (ledger.swept now threshold).Distinct := by
  unfold Ledger.swept
  split
  · exact h.purge now
  · exact h

theorem holds_swept (ht : now.micros ≤ t.micros) (threshold : Int) :
    (ledger.swept now threshold).Holds t j ↔ ledger.Holds t j := by
  unfold swept
  split
  · exact holds_purge ht
  · rfl

theorem mark_eq (h : ledger.Distinct) (now : Instant) (threshold : Int) (jti : Text)
    (expiry : Instant) :
    ledger.Holds now jti ∧
      ledger.mark now threshold jti expiry = (false, ledger.swept now threshold) ∨
    ¬ ledger.Holds now jti ∧
      ledger.mark now threshold jti expiry =
        (true, (ledger.swept now threshold).put jti expiry) := by
  have hs := h.swept now threshold
  rw [← holds_swept (Int.le_refl now.micros) threshold]
  have hswept : (if threshold ≤ ledger.length then ledger.purge now else ledger) =
      ledger.swept now threshold := rfl
  unfold mark
  rw [hswept]
  dsimp only
  split
  · next known hf =>
    rw [hs.holds_iff hf]
    split
    · next hk => exact .inl ⟨hk, rfl⟩
    · next hk => exact .inr ⟨hk, rfl⟩
  · next hf => exact .inr ⟨not_holds_of_find?_eq_none hf, rfl⟩

end Mark

end Ledger

namespace Cache

variable {c c' : Cache} {now t : Instant} {key k : Text} {value : String} {seconds : Nat}

def Holds (c : Cache) (t : Instant) (key : Text) : Prop :=
  ∃ x ∈ c.texts, x.key = key ∧ t.micros < x.liveUntil.micros

theorem dropEnded_holds (ht : now.micros ≤ t.micros) :
    (c.dropEnded now key).Holds t k ↔ c.Holds t k := by
  constructor
  · rintro ⟨x, hx, h⟩
    exact ⟨x, List.mem_of_mem_filter hx, h⟩
  · rintro ⟨x, hx, e, hl⟩
    refine ⟨x, List.mem_filter.mpr ⟨hx, ?_⟩, e, hl⟩
    have : now.micros < x.liveUntil.micros := by omega
    simp [isLive, this]

theorem any_dropEnded :
    ((c.dropEnded now key).texts.any (·.key = key)) = true ↔ c.Holds now key := by
  rw [← dropEnded_holds (Int.le_refl now.micros), List.any_eq_true]
  constructor
  · rintro ⟨x, hx, e⟩
    have e : x.key = key := by simpa using e
    have hl := (List.mem_filter.mp hx).2
    refine ⟨x, hx, e, ?_⟩
    simpa [e, isLive] using hl
  · rintro ⟨x, hx, e, -⟩
    exact ⟨x, hx, by simpa using e⟩

theorem exists?_of_outage (now : Instant) (key : Text) (h : c.outage ≠ none) :
    ∃ f, c.exists? now key = .error f := by
  obtain ⟨text, ht⟩ := Option.ne_none_iff_exists'.mp h
  refine ⟨⟨.connection, text⟩, ?_⟩
  simp only [exists?, reach, ht, bind, Except.bind]

theorem exists?_eq_ok (key : Text) (h : c.outage = none) :
    c.exists? now key =
      .ok ((c.dropEnded now key).texts.any (·.key = key), c.dropEnded now key) := by
  simp only [exists?, reach, h, bind, Except.bind, pure, Except.pure]

def keeping (c : Cache) (now : Instant) (key : Text) (value : String) (seconds : Nat) : Cache :=
  { c with texts := c.texts ++ [⟨key, value, ⟨now.micros + seconds * 1000000⟩, seconds⟩] }

theorem keeping_holds :
    (c.keeping now key value seconds).Holds t k ↔
      (k = key ∧ t.micros < now.micros + seconds * 1000000) ∨ c.Holds t k := by
  unfold Holds keeping
  simp only [List.mem_append, List.mem_singleton]
  constructor
  · rintro ⟨x, hx | rfl, e, ht⟩
    · exact .inr ⟨x, hx, e, ht⟩
    · exact .inl ⟨e.symm, ht⟩
  · rintro (⟨rfl, ht⟩ | ⟨x, hx, h⟩)
    · exact ⟨_, .inr rfl, rfl, ht⟩
    · exact ⟨x, .inl hx, h⟩

theorem setFresh_of_outage (now : Instant) (key : Text) (value : String) (seconds : Nat)
    (h : c.outage ≠ none) :
    ∃ f, c.setFresh now key value seconds = .error f := by
  obtain ⟨text, ht⟩ := Option.ne_none_iff_exists'.mp h
  refine ⟨⟨.connection, text⟩, ?_⟩
  simp only [setFresh, reach, ht, bind, Except.bind]

theorem setFresh_cases (now : Instant) (key : Text) (value : String) (seconds : Nat)
    (h : c.outage = none) :
    (c.Holds now key ∧ c.setFresh now key value seconds = .ok (false, c.dropEnded now key)) ∨
    (¬ c.Holds now key ∧ c.setFresh now key value seconds =
      .ok (true, (c.dropEnded now key).keeping now key value seconds)) := by
  unfold setFresh reach
  simp only [h, bind, Except.bind]
  by_cases hl : (c.dropEnded now key).texts.any (·.key = key) = true
  · rw [if_pos hl]
    exact .inl ⟨any_dropEnded.mp hl, rfl⟩
  · rw [if_neg hl]
    exact .inr ⟨fun hh => hl (any_dropEnded.mpr hh), rfl⟩

end Cache

namespace ReplayStore

def Distinct : ReplayStore → Prop
  | .memory _ ledger => ledger.Distinct
  | .shared => True

def threshold? : ReplayStore → Option Int
  | .memory threshold _ => some threshold
  | .shared => none

def endOf (store : ReplayStore) (now expiry : Instant) : Instant :=
  match store with
  | .memory _ _ => expiry
  | .shared => ⟨now.micros + keepSeconds now expiry * 1000000⟩

theorem endOf_congr {store store' : ReplayStore} (h : store'.threshold? = store.threshold?)
    (now expiry : Instant) : store'.endOf now expiry = store.endOf now expiry := by
  cases store <;> cases store' <;> first | rfl | cases h

theorem one_le_keepSeconds (now expiry : Instant) : 1 ≤ keepSeconds now expiry := by
  unfold keepSeconds
  omega

/-- A store remembers a mark until `expiry` and not only near it: always in memory, and on the
shared server when `expiry` is less than 2³³ seconds ahead. -/
def KeepsUntil (store : ReplayStore) (now expiry : Instant) : Prop :=
  match store with
  | .memory _ _ => True
  | .shared => expiry.micros - now.micros < 2 ^ 33 * 1000000

theorem keepsUntil_congr {store store' : ReplayStore} (h : store'.threshold? = store.threshold?)
    (now expiry : Instant) : store'.KeepsUntil now expiry ↔ store.KeepsUntil now expiry := by
  cases store <;> cases store' <;> first | exact Iff.rfl | cases h

theorem le_endOf {store : ReplayStore} {now expiry : Instant} (h : store.KeepsUntil now expiry) :
    expiry.micros ≤ (store.endOf now expiry).micros := by
  cases store with
  | memory threshold ledger => exact Int.le_refl _
  | shared =>
    change expiry.micros ≤ now.micros + keepSeconds now expiry * 1000000
    by_cases hn : expiry.micros ≤ now.micros
    · omega
    obtain ⟨p, hp⟩ : ∃ p : Nat, expiry.micros - now.micros = p :=
      ⟨_, (Int.toNat_of_nonneg (by omega)).symm⟩
    have hb : expiry.micros - now.micros < 2 ^ 33 * 1000000 := h
    obtain ⟨k, hk, hpk⟩ := Binary64.exists_ceil_of_ratio (p := p) (by omega)
    have hkeep : keepSeconds now expiry = (max 1 k).toNat := by
      unfold keepSeconds Instant.since Span.seconds
      rw [hp, hk, Option.getD_some]
    rw [hkeep]
    omega

theorem lt_endOf {store : ReplayStore} {now expiry : Instant} (h : now.micros < expiry.micros) :
    now.micros < (store.endOf now expiry).micros := by
  cases store with
  | memory threshold ledger => exact h
  | shared =>
    change now.micros < now.micros + keepSeconds now expiry * 1000000
    have := one_le_keepSeconds now expiry
    omega

end ReplayStore

@[ext]
structure Records where
  store : ReplayStore
  cache : Cache

namespace Records

variable {a b c : Records} {now t : Instant} {jti j : Text}

def Holds (a : Records) (t : Instant) (jti : Text) : Prop :=
  match a.store with
  | .memory _ ledger => ledger.Holds t jti
  | .shared => a.cache.Holds t (ReplayStore.cacheKey jti)

def server (a : Records) : Option Text × Bool × List HashField :=
  (a.cache.outage, a.cache.givesText, a.cache.fields)

structure Become (now : Instant) (a : Records) (live : Instant → Text → Prop) (b : Records) :
    Prop where
  threshold : b.store.threshold? = a.store.threshold?
  server : b.server = a.server
  distinct : b.store.Distinct
  holds : ∀ t j, now.micros ≤ t.micros → (b.Holds t j ↔ live t j)

/-- From `now` on, `b` has the live records that `a` has. -/
def Alike (now : Instant) (a b : Records) : Prop := Become now a a.Holds b

def Marked (now : Instant) (jti : Text) (until_ : Instant) (a b : Records) : Prop :=
  Become now a (fun t j => a.Holds t j ∨ j = jti ∧ t.micros < until_.micros) b

theorem Alike.refl (h : a.store.Distinct) : Alike now a a := ⟨rfl, rfl, h, fun _ _ _ => Iff.rfl⟩

theorem Become.later {live : Instant → Text → Prop} (h : Become now a live b)
    (ht : now.micros ≤ t.micros) : Become t a live b :=
  ⟨h.threshold, h.server, h.distinct, fun u j hu => h.holds u j (Int.le_trans ht hu)⟩

theorem Alike.trans (h : Alike now a b) (h' : Alike now b c) : Alike now a c :=
  ⟨h'.threshold.trans h.threshold, h'.server.trans h.server, h'.distinct,
    fun t j ht => (h'.holds t j ht).trans (h.holds t j ht)⟩

theorem Alike.trans_marked {until_ : Instant} (h : Alike now a b)
    (h' : Marked now jti until_ b c) : Marked now jti until_ a c :=
  ⟨h'.threshold.trans h.threshold, h'.server.trans h.server, h'.distinct,
    fun t j ht => (h'.holds t j ht).trans (or_congr_left (h.holds t j ht))⟩

theorem cacheKey_inj : ReplayStore.cacheKey j = ReplayStore.cacheKey jti ↔ j = jti := by
  unfold ReplayStore.cacheKey
  exact List.append_right_inj _

def Down (a : Records) : Prop := a.store.threshold? = none ∧ a.cache.outage ≠ none

theorem Become.down {live : Instant → Text → Prop} (h : Become now a live b) :
    b.Down ↔ a.Down := by
  have ho : b.cache.outage = a.cache.outage := congrArg Prod.fst h.server
  unfold Down
  rw [h.threshold, ho]

def readFault : Fault := ⟨.runtime, "Failed to read replay record from Redis"⟩

def writeFault : Fault := ⟨.runtime, "Failed to write replay record to Redis"⟩

theorem isUsed_cases (hd : a.store.Distinct) (now : Instant) (jti : Text) :
    a.Down ∧ a.store.isUsed a.cache now jti = .error readFault ∨
    ¬ a.Down ∧ ∃ used b, a.store.isUsed a.cache now jti = .ok (used, b.store, b.cache) ∧
      (used = true ↔ a.Holds now jti) ∧ Alike now a b := by
  obtain ⟨store, cache⟩ := a
  cases store with
  | memory threshold ledger =>
    refine .inr ⟨fun h => Option.some_ne_none _ h.1, _, ⟨_, cache⟩, rfl, ?_⟩
    exact ⟨Ledger.isUsed_fst hd, rfl, rfl, Ledger.Distinct.isUsed hd,
      fun t j ht => Ledger.isUsed_snd_holds hd ht⟩
  | shared =>
    by_cases ho : cache.outage = none
    · refine .inr ⟨fun h => h.2 ho, _, ⟨.shared, cache.dropEnded now (ReplayStore.cacheKey jti)⟩,
        ?_, Cache.any_dropEnded, ?_⟩
      · simp only [ReplayStore.isUsed, Cache.exists?_eq_ok _ ho]
      · exact ⟨rfl, rfl, trivial, fun t j ht => Cache.dropEnded_holds ht⟩
    · obtain ⟨f, hf⟩ := Cache.exists?_of_outage now (ReplayStore.cacheKey jti) ho
      refine .inl ⟨⟨rfl, ho⟩, ?_⟩
      simp only [ReplayStore.isUsed, hf, readFault]

/-- A mark fails while the server is out. Otherwise it is refused when there is a live record and
made when there is none; either way nothing else that is live is lost. -/
theorem mark_cases (hd : a.store.Distinct) (now : Instant) (jti : Text) (expiry : Instant) :
    a.Down ∧ a.store.mark a.cache now jti expiry = .error writeFault ∨
    ¬ a.Down ∧ a.Holds now jti ∧ (∃ b : Records,
      a.store.mark a.cache now jti expiry = .ok (false, b.store, b.cache) ∧ Alike now a b) ∨
    ¬ a.Down ∧ ¬ a.Holds now jti ∧ ∃ b : Records,
      a.store.mark a.cache now jti expiry = .ok (true, b.store, b.cache) ∧
        Marked now jti (a.store.endOf now expiry) a b := by
  obtain ⟨store, cache⟩ := a
  cases store with
  | memory threshold ledger =>
    have hup : ¬ Down ⟨.memory threshold ledger, cache⟩ := fun h => Option.some_ne_none _ h.1
    have hs : (ledger.swept now threshold).Distinct := Ledger.Distinct.swept hd now threshold
    right
    rcases Ledger.mark_eq hd now threshold jti expiry with ⟨hh, e⟩ | ⟨hh, e⟩
    · refine .inl ⟨hup, hh, ⟨.memory threshold (ledger.swept now threshold), cache⟩, ?_, ?_⟩
      · simp only [ReplayStore.mark, e]
      · exact ⟨rfl, rfl, hs, fun t j ht => Ledger.holds_swept ht _⟩
    · refine .inr ⟨hup, hh,
        ⟨.memory threshold ((ledger.swept now threshold).put jti expiry), cache⟩, ?_, ?_⟩
      · simp only [ReplayStore.mark, e]
      · refine ⟨rfl, rfl, hs.put, fun t j ht => ?_⟩
        -- The new record replaces one that has ended, so nothing live is lost.
        have hn : ¬ (ledger.swept now threshold).Holds t jti := fun hl =>
          hh (((Ledger.holds_swept ht _).mp hl).earlier ht)
        exact (Ledger.holds_put hs hn).trans (or_congr_left (Ledger.holds_swept ht _))
  | shared =>
    by_cases ho : cache.outage = none
    · have hup : ¬ Down ⟨.shared, cache⟩ := fun h => h.2 ho
      rcases Cache.setFresh_cases now (ReplayStore.cacheKey jti) expiry.offsetText
        (ReplayStore.keepSeconds now expiry) ho with ⟨hh, e⟩ | ⟨hh, e⟩
      · refine .inr (.inl ⟨hup, hh, ⟨.shared, cache.dropEnded now (ReplayStore.cacheKey jti)⟩,
          by simp only [ReplayStore.mark, e], ?_⟩)
        exact ⟨rfl, rfl, trivial, fun t j ht => Cache.dropEnded_holds ht⟩
      · refine .inr (.inr ⟨hup, hh, ⟨.shared, (cache.dropEnded now
          (ReplayStore.cacheKey jti)).keeping now (ReplayStore.cacheKey jti) expiry.offsetText
          (ReplayStore.keepSeconds now expiry)⟩,
          by simp only [ReplayStore.mark, e], rfl, rfl, trivial, fun t j ht => ?_⟩)
        refine Cache.keeping_holds.trans ?_
        rw [cacheKey_inj, or_comm]
        exact or_congr_left (Cache.dropEnded_holds ht)
    · obtain ⟨f, hf⟩ := Cache.setFresh_of_outage now (ReplayStore.cacheKey jti)
        expiry.offsetText (ReplayStore.keepSeconds now expiry) ho
      refine .inl ⟨⟨rfl, ho⟩, ?_⟩
      simp only [ReplayStore.mark, hf, writeFault]

theorem alike_of_isUsed_eq_ok {used : Bool} (hd : a.store.Distinct)
    (h : a.store.isUsed a.cache now jti = .ok (used, b.store, b.cache)) : Alike now a b := by
  rcases isUsed_cases hd now jti with ⟨-, e⟩ | ⟨-, used', b', e, -, ha⟩
  · rw [e] at h
    cases h
  · obtain ⟨-, h₁, h₂⟩ := by simpa only [e, Except.ok.injEq, Prod.mk.injEq] using h
    obtain rfl : b' = b := Records.ext h₁ h₂
    exact ha

theorem mark_eq_ok {marked : Bool} {expiry : Instant} (hd : a.store.Distinct)
    (h : a.store.mark a.cache now jti expiry = .ok (marked, b.store, b.cache)) :
    marked = false ∧ a.Holds now jti ∧ Alike now a b ∨
    marked = true ∧ ¬ a.Down ∧ ¬ a.Holds now jti ∧
      Marked now jti (a.store.endOf now expiry) a b := by
  rcases mark_cases hd now jti expiry with ⟨-, e⟩ | ⟨-, hh, b', e, ha⟩ | ⟨hup, hh, b', e, hm⟩
  · rw [e] at h
    cases h
  all_goals
    obtain ⟨rfl, h₁, h₂⟩ := by simpa only [e, Except.ok.injEq, Prod.mk.injEq] using h
    obtain rfl : b' = b := Records.ext h₁ h₂
  · exact .inl ⟨rfl, hh, ha⟩
  · exact .inr ⟨rfl, hup, hh, hm⟩

end Records
end AssertionGrant
