import AssertionGrant.Proofs.Lockstep
import AssertionGrant.Proofs.Verdicts

/-! Two requests that bear no identifier in common, at one reading of the clock. What one of them
leaves behind differs from what was there in the record of its own identifier only, and of that the
other takes no notice. So either order gives both what each would get alone, and in the end no later
call tells which came first. -/

namespace AssertionGrant

namespace Site

structure Spares (P : Text → Prop) (s s' : Site) : Prop where
  now : s'.now = s.now
  keys : s'.keys = s.keys
  uptime : s'.uptime = s.uptime
  random : s'.randomText = s.randomText
  draws : s'.draws = s.draws
  undisturbed : s.disturbances = {}
  undisturbed' : s'.disturbances = {}
  distinct : s.replays.Distinct
  records : s.records.AlikeOn P s.now s'.records

variable {P : Text → Prop} {s s' : Site}

theorem Spares.distinct' (h : Spares P s s') : s'.replays.Distinct := h.records.become.distinct

end Site

variable [Json.Nesting]

/-- The assertion of a request has an identifier, whoever signed it. -/
def AccessRequest.Bears (r : AccessRequest) (jti : Text) : Prop :=
  jti ≠ [] ∧ ∃ c, r.claimed? = some c ∧ c.jwtId = jti

theorem Grant.claimed?_of_assertionOf {r : AccessRequest} {raw : String} {c : Claims}
    (hraw : assertionOf r = .ok raw) (hc : Assertion.claimed raw = .ok c) : r.claimed? = some c := by
  unfold AccessRequest.claimed?
  rw [hraw]
  dsimp only
  rw [hc]
  rfl

def Pairing.sharing (now : Instant) (P : Text → Prop) : Pairing where
  likeness := .same
  now := now
  stores a b := b.keys = a.keys ∧ a.records.store.Distinct ∧ a.records.AlikeOn P now b.records
  tenant _ _ := True
  jti := P
  found := by
    rintro a b issuer subject ⟨hkeys, -, h⟩ - keyId
    unfold Stores.found
    rw [hkeys, Records.cache_of_server h.become.server, KeyStore.find_texts]
    exact .refl _
  listed := by
    rintro a b issuer subject ⟨hkeys, -, h⟩ -
    unfold Stores.listed
    rw [hkeys, Records.cache_of_server h.become.server, KeyStore.list_texts]
    exact .refl _
  replied := by
    rintro a b call ⟨hkeys, hd, h⟩ hj
    obtain ⟨hanswer, hd', h'⟩ := h.reply hd call hj
    refine ⟨?_, hkeys, hd', h'⟩
    unfold Stores.replied
    dsimp only
    rw [hanswer]
    exact .refl _

theorem Site.Spares.paired {P : Text → Prop} {s s' : Site} (h : Site.Spares P s s')
    (context : Option Context) :
    Site.Paired (.sharing s.now P) (s.within context) (s'.within context) where
  left := rfl
  right := h.now
  uptime := h.uptime
  context := rfl
  random := h.random
  draws := h.draws
  disturbances := by
    change Disturbances.Agree _ s.disturbances s'.disturbances
    rw [h.undisturbed, h.undisturbed']
    exact .refl _
  disturbed := trivial
  stores := ⟨h.keys, h.distinct, h.records⟩

namespace Grant

variable {g : Grant} {a b r : AccessRequest} {s s' : Site} {P : Text → Prop}

/-- A request touches no record but that of an identifier which it bears. -/
theorem spares_handled (hundisturbed : s.disturbances = {}) (hd : s.replays.Distinct) (g : Grant)
    (r : AccessRequest) (context : Option Context) :
    Site.Spares (fun jti => ¬ r.Bears jti) s (g.handled r (s.within context)).2 := by
  have hd' : (s.within context).replays.Distinct := hd
  obtain ⟨made, hadvances, -, -⟩ := accounts_handled (g := g) (r := r) hd' allows_any
    rulesAllowed_any fun _ _ _ _ => trivial
  have hcalm := hadvances.disturbances.trans hundisturbed
  have hstill := hadvances.uptime hundisturbed
  have hfaithful : (s.within context).Faithful := by
    change s.disturbances.mark.bind (·.outcome) ≠ some (.ok ())
    rw [hundisturbed]
    nofun
  rcases g.handled_cases r (s.within context) with ⟨f, s', -, -, hu⟩ | ⟨c, s', log, hc, e, -⟩
  · exact ⟨hu.now, hu.keys, hstill, hadvances.random, hadvances.draws, hundisturbed, hcalm, hd,
      (hu.records hd).on⟩
  · rw [e] at hadvances hstill hcalm ⊢
    obtain ⟨hclaimed, expiry, -, ⟨-, hu⟩ | ⟨hj, hm⟩⟩ := of_clear_gives hfaithful hc
    · exact ⟨hu.now, hu.keys, hstill, hadvances.random, hadvances.draws, hundisturbed, hcalm, hd,
        (hu.records hd).on⟩
    · have hothers : s.records.AlikeOn (fun jti => ¬ r.Bears jti) s.now s'.records := by
        refine (hm.records hd).alikeOn fun t j hj' _ => or_iff_left ?_
        rintro ⟨rfl, -⟩
        exact hj' ⟨hj, c, hclaimed, rfl⟩
      exact ⟨hm.now, hm.keys, hstill, hadvances.random, hadvances.draws, hundisturbed, hcalm, hd,
        hothers⟩

theorem handled_of_spares (h : s.Spares P s') (hP : ∀ jti, r.Bears jti → P jti) (g : Grant)
    (context : Option Context) :
    (g.handled r (s'.within context)).1 = (g.handled r (s.within context)).1 ∧
      (g.handled r (s.within context)).2.records.AlikeOn P s.now
        (g.handled r (s'.within context)).2.records := by
  have hw (raw : String) (hraw : assertionOf r = .ok raw) :
      Assertion.Within (.sharing s.now P) raw :=
    ⟨fun _ _ _ _ _ => trivial,
      fun c hc hj => hP _ ⟨hj, c, claimed?_of_assertionOf hraw hc, rfl⟩⟩
  obtain ⟨hresult, hrequest, hpaired⟩ := g.handled_parallel hw (h.paired context)
  exact ⟨congrArg₂ Handled.mk hrequest hresult.eq, hpaired.stores.2.2⟩

/-- Two requests that bear no identifier in common fare in either order as each would alone, and
leave records that no later calls tell apart. -/
theorem requests_commute (hundisturbed : s.disturbances = {}) (hd : s.replays.Distinct)
    (hapart : ∀ jti, a.Bears jti → ¬ b.Bears jti) (g : Grant) (ca cb : Option Context) :
    (g.handled b ((g.handled a (s.within ca)).2.within cb)).1 = (g.handled b (s.within cb)).1 ∧
      (g.handled a ((g.handled b (s.within cb)).2.within ca)).1 =
        (g.handled a (s.within ca)).1 ∧
      Records.Indistinguishable s.now
        (g.handled b ((g.handled a (s.within ca)).2.within cb)).2.records
        (g.handled a ((g.handled b (s.within cb)).2.within ca)).2.records := by
  have hafter := spares_handled hundisturbed hd g a ca
  have hafter' := spares_handled hundisturbed hd g b cb
  have hforeign (jti : Text) (hb : b.Bears jti) : ¬ a.Bears jti := fun ha => hapart jti ha hb
  obtain ⟨hb, hside⟩ := handled_of_spares hafter hforeign g cb
  obtain ⟨ha, hside'⟩ := handled_of_spares hafter' hapart g ca
  have hsecond := (spares_handled hafter.undisturbed' hafter.distinct' g b cb).records
  have hsecond' := (spares_handled hafter'.undisturbed' hafter'.distinct' g a ca).records
  rw [hafter.now] at hsecond
  rw [hafter'.now] at hsecond'
  refine ⟨hb, ha, ?_⟩
  -- Where `a` bears no identifier the records are those after `b` alone, and the other way round.
  have hall := (hside.meet hsecond').join (hsecond.meet hside') fun jti => ?_
  · exact hall.indistinguishable hside.become.distinct
  · by_cases h : a.Bears jti
    · exact .inr (hapart jti h)
    · exact .inl h

end Grant
end AssertionGrant

namespace AssertionGrant.Specimen
open Grant

def otherKey : Jwk where
  fields := [("kty", .str "RSA"), ("kid", .str "k"), ("e", .str "Aw"), ("n", .str
    ("m2Tss30uz_kqSnDigoukoIGQnz8hzefsKCjQWYwOOwZQkcmP1x34Tmr-swofKp2cmxUtS6pBHpyPYus1YhBFdw"))]
  material := .rsaPublic
    ⟨0x9b64ecb37d2ecff92a4a70e2828ba4a081909f3f21cde7ec2828d0598c0e3b06 * 2 ^ 256 +
      0x5091c98fd71df84e6afeb30a1f2a9d9c9b152d4baa411e9c8f62eb3562104577, 3⟩

def otherRaw : String :=
  "eyJhbGciOiJSUzI1NiJ9.eyJpc3MiOiJpIiwic3ViIjoidCIsImF1ZCI6ImFzIiwiZXhwIjo1LCJqdGkiOiJsIn0." ++
    "L2FpBo4GUprfZm65n8ofng2fuZfX2FbRfefLVL64LW80NIbCirhxrN-fGBKDKIl1SKSkVyhFDGYsC0xzIX6FnA"

def otherRequest : AccessRequest := { request with form := [("assertion", otherRaw)] }

def busySite : Site where
  now := ⟨0⟩
  keys := .memory
    [⟨.str "i", .str "s", .str "k", key, []⟩, ⟨.str "i", .str "t", .str "k", otherKey, []⟩]
  replays := .memory 1 [("old", ⟨-1⟩)]

theorem requests_commuted : (∀ jti, request.Bears jti → ¬ otherRequest.Bears jti) ∧
    (grant.handled otherRequest ((grant.handled request (busySite.within none)).2.within
      none)).1.result = .ok () ∧
    (grant.handled request ((grant.handled otherRequest (busySite.within none)).2.within
      none)).1.result = .ok () ∧
    Records.Indistinguishable busySite.now
      (grant.handled otherRequest ((grant.handled request (busySite.within none)).2.within
        none)).2.records
      (grant.handled request ((grant.handled otherRequest (busySite.within none)).2.within
        none)).2.records := by
  have hrequest : request.claimed?.map (·.jwtId) = some (.ofString "j") := by decide +kernel
  have hother : otherRequest.claimed?.map (·.jwtId) = some (.ofString "l") := by decide +kernel
  have hapart (jti : Text) (h : request.Bears jti) : ¬ otherRequest.Bears jti := by
    rintro ⟨-, c', hc', rfl⟩
    obtain ⟨-, c, hc, he⟩ := h
    rw [hc] at hrequest
    rw [hc'] at hother
    have hl : Text.ofString "j" = Text.ofString "l" := by
      rw [← Option.some.inj hrequest, ← Option.some.inj hother]
      exact he
    exact absurd hl (by decide)
  have hdistinct : busySite.replays.Distinct := List.nodup_singleton _
  obtain ⟨hsecond, hfirst, hrecords⟩ := requests_commute rfl hdistinct hapart grant none none
  have haccepted : (grant.handled request (busySite.within none)).1.result = .ok () := by
    decide +kernel
  have haccepted' : (grant.handled otherRequest (busySite.within none)).1.result = .ok () := by
    decide +kernel
  rw [← hsecond] at haccepted'
  rw [← hfirst] at haccepted
  exact ⟨hapart, haccepted', haccepted, hrecords⟩

end AssertionGrant.Specimen
