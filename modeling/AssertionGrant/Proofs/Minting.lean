import AssertionGrant.Proofs.Frames
import AssertionGrant.Proofs.Rounding
import AssertionGrant.Proofs.Segments

/-! What an access token says. Whoever reads the token finds the subject of the session, the granted
audience, the client and the granted scopes, each as it is on the request, and the body of the
response has the same text of scopes. -/

namespace AssertionGrant

theorem Instant.wholeSeconds_short (t : Instant) : Json.isTooLong t.wholeSeconds = false := by
  have hlt : t.wholeSeconds.natAbs < 2 ^ 1024 :=
    Binary64.natAbs_truncate_lt (decide (t.micros < 0)) (t.micros.natAbs * Binary64.unit) 1000000
  have step {k : Nat} (hk : k ≤ Numeral.digitLimit) (h : t.wholeSeconds.natAbs < 2 ^ k) :
      t.wholeSeconds.natAbs < 10 ^ Numeral.digitLimit := by
    calc t.wholeSeconds.natAbs < 2 ^ k := h
      _ ≤ 10 ^ k := Nat.pow_le_pow_left (by decide) k
      _ ≤ 10 ^ Numeral.digitLimit := Nat.pow_le_pow_right (by decide) hk
  have hsmall := step (by decide) hlt
  have hlength := (Nat.length_toDigits_le_iff (b := 10) (by decide) (by decide)).mpr hsmall
  unfold Json.isTooLong
  exact decide_eq_false (Nat.not_lt.mpr hlength)

theorem Json.firstUnwritable_texts (texts : List Text) (depth : Nat) :
    firstUnwritable? depth (texts.map .str) = none := by
  induction texts with
  | nil => rw [List.map_nil, firstUnwritable?]
  | cons text texts ih =>
    rw [List.map_cons, firstUnwritable?, ih]
    cases depth <;> rfl

theorem Json.mergedItems_texts (texts : List Text) :
    mergedItems (texts.map .str) = (texts.map Text.merged).map .str := by
  induction texts with
  | nil => rfl
  | cons text texts ih =>
    rw [List.map_cons, mergedItems, ih]
    rfl

def Scope.text? (scopes : List Text) : Option Text :=
  if scopes.isEmpty then none else some (join scopes)

namespace TokenResponse

variable {response : TokenResponse}

theorem body_accessToken (h : response.extra = []) :
    response.body.get? "access_token" = some (.str response.accessToken) := by
  unfold body
  rw [h]
  cases response.expiresIn <;> cases response.scopes.isEmpty <;> rfl

theorem body_scope (h : response.extra = []) :
    response.body.get? "scope" = (Scope.text? response.scopes).map .str := by
  unfold body Scope.text?
  rw [h]
  cases response.expiresIn <;> cases response.scopes.isEmpty <;> rfl

end TokenResponse

namespace Issuer

structure Tells (payload : Fields) (subject : Text) (audience : List Text) (client scope : Option Text) :
    Prop where
  subject : payload.get? "sub" = some (.str subject)
  audience : payload.get? "aud" =
    if audience.isEmpty then none else some (.arr (audience.map .str))
  client : payload.get? "client_id" = client.map .str
  scope : payload.get? "scope" = scope.map .str

theorem Tells.merged {payload : Fields} {subject : Text} {audience : List Text}
    {client scope : Option Text} (h : Tells payload subject audience client scope)
    (hd : (payload.map (·.1)).Nodup) : Tells (Json.mergedFields [] payload) subject.merged
      (audience.map Text.merged) (client.map Text.merged) (scope.map Text.merged) where
  subject := by
    rw [Jwk.Follows.get?_merged hd "sub" (by decide), h.subject]
    rfl
  audience := by
    rw [Jwk.Follows.get?_merged hd "aud" (by decide), h.audience, List.isEmpty_map]
    split
    · rfl
    · exact congrArg (fun items => some (Json.arr items)) (Json.mergedItems_texts audience)
  client := by
    rw [Jwk.Follows.get?_merged hd "client_id" (by decide), h.client]
    cases client <;> rfl
  scope := by
    rw [Jwk.Follows.get?_merged hd "scope" (by decide), h.scope]
    cases scope <;> rfl

theorem exists_header (i : Issuer) :
    ∃ header, i.header = .obj header ∧ Json.Plain header ∧
      (header.map (·.1)).Sublist (["typ", "alg", "kid"].map Text.ofString) := by
  have hshort : (["typ", "alg"].map Text.ofString).Sublist
      (["typ", "alg", "kid"].map Text.ofString) := by decide
  have hplain : Json.Plain [("typ", .str "at+jwt"), ("alg", .str i.algorithm)] := by
    simp [Json.Plain]
  unfold header
  dsimp only
  split
  · exact ⟨_, rfl, hplain, hshort⟩
  · exact ⟨_, rfl, hplain, hshort⟩
  · refine ⟨_, rfl, ?_, List.Sublist.refl _⟩
    simp [Json.Plain]

variable [Json.Nesting] {i : Issuer} {r : AccessRequest} {s s' : Site}

theorem exists_payload (i : Issuer) (r : AccessRequest) (now expiresAt : Instant) (jti : String) :
    ∃ payload, i.payload r now expiresAt jti = .obj payload ∧
      Tells payload ((r.session.bind Session.subject?).getD "") r.grantedAudience
        (r.client.map (·.id)) (Scope.text? r.grantedScopes) ∧
      (Json.obj payload).Proper ∧ (Json.obj payload).unwritable? Json.Nesting.limit = none := by
  have hnow := now.wholeSeconds_short
  have hexpires := expiresAt.wholeSeconds_short
  have hproper := Json.allProper_texts r.grantedAudience
  have hwritable := Json.firstUnwritable_texts r.grantedAudience
  obtain ⟨depth, hdepth⟩ := Nat.exists_eq_add_of_le' Json.Nesting.two_le
  refine ⟨_, rfl, ?_⟩
  rw [hdepth]
  generalize (r.session.bind Session.subject?).getD "" = subject
  generalize r.grantedAudience = audience at *
  generalize r.grantedScopes = scopes at *
  generalize r.client = client
  -- Whichever of the three optional fields are there, their names are apart.
  cases haudience : audience.isEmpty <;> cases client <;> cases hscopes : scopes.isEmpty
  all_goals
    refine ⟨⟨rfl, ?_, rfl, ?_⟩, ?_, ?_⟩
    · rw [haudience]
      rfl
    · unfold Scope.text?
      rw [hscopes]
      rfl
    · simp [Json.Proper, Json.FieldsProper, Json.int, Number.Proper, hproper]
    · simp [Json.unwritable?, Json.firstUnwritableField?, Json.int, hnow, hexpires, hwritable]

theorem of_sign_gives {payload : Json} {token : String}
    (h : (i.sign payload).Gives s token s') :
    ∃ alg, Compact.sign i.header payload alg i.key = .ok token := by
  unfold sign at h
  split at h
  · exact absurd h Act.gives_throw
  · next alg _ =>
    split at h
    · next token' htoken =>
      obtain ⟨rfl, -⟩ := Act.gives_pure.mp h
      exact ⟨alg, htoken⟩
    · split at h
      · exact absurd h Act.gives_throw
      · simp only [Act.gives_bind, Act.gives_throw, and_false, exists_false] at h

theorem exists_issued {lifespan : Span} {response : TokenResponse}
    (h : (i.issue lifespan r).Gives s response s') :
    response.scopes = r.grantedScopes ∧ response.extra = [] ∧
      ∃ expiresAt jti t payload, expiryFor r s.now lifespan = .ok expiresAt ∧
        response.expiresIn = some (.int (secondsLeft s.now expiresAt)) ∧
        Compact.parse response.accessToken = .ok t ∧
        t.unverifiedClaims = .ok (Json.mergedFields [] payload) ∧
        i.payload r s.now expiresAt jti = .obj payload := by
  obtain ⟨_, s₁, hlive, h⟩ := Act.gives_bind.mp h
  obtain rfl := Act.of_checkContext_gives hlive
  obtain ⟨t₁, s₂, hget, h⟩ := Act.gives_bind.mp h
  obtain ⟨rfl, rfl⟩ := Act.gives_get.mp hget
  obtain ⟨expiresAt, s₃, hexpiry, h⟩ := Act.gives_bind.mp h
  obtain ⟨hexpiry, -⟩ := Act.gives_faulting.mp hexpiry
  obtain ⟨jti, s₄, -, h⟩ := Act.gives_bind.mp h
  obtain ⟨token, s₅, htoken, h⟩ := Act.gives_bind.mp h
  obtain ⟨rfl, -⟩ := Act.gives_pure.mp h
  obtain ⟨payload, hpayload, -, hproper, hwritable⟩ := i.exists_payload r s.now expiresAt jti
  obtain ⟨header, hheader, hplain, hnames⟩ := i.exists_header
  obtain ⟨alg, hsign⟩ := of_sign_gives htoken
  rw [hheader, hpayload] at hsign
  have hapart : (header.map (·.1)).Nodup :=
    List.Nodup.sublist hnames (by decide)
  obtain ⟨t, hparse, -, hclaims⟩ := Compact.parse_of_sign hplain hapart
    (fun hcritical => absurd (hnames.subset hcritical) (by decide))
    (fun hattached => absurd (hnames.subset hattached) (by decide)) hproper hwritable hsign
  exact ⟨rfl, rfl, expiresAt, jti, t, payload, hexpiry, rfl, hparse, hclaims, hpayload⟩

/-- A token that is issued can be read, and it says what is granted on its request. -/
theorem of_issue_gives {lifespan : Span} {response : TokenResponse}
    (h : (i.issue lifespan r).Gives s response s') :
    response.scopes = r.grantedScopes ∧ response.extra = [] ∧
      ∃ t payload, Compact.parse response.accessToken = .ok t ∧
        t.unverifiedClaims = .ok payload ∧
        Tells payload ((r.session.bind Session.subject?).getD "").merged
          (r.grantedAudience.map Text.merged) (r.client.map (·.id.merged))
          ((Scope.text? r.grantedScopes).map Text.merged) := by
  obtain ⟨hscopes, hextra, expiresAt, jti, t, payload, -, -, hparse, hclaims, hpayload⟩ :=
    exists_issued h
  obtain ⟨payload', hpayload', htells, hproper, -⟩ := i.exists_payload r s.now expiresAt jti
  obtain rfl := Json.obj.inj (hpayload.symm.trans hpayload')
  have htold := htells.merged hproper.1
  rw [Option.map_map] at htold
  exact ⟨hscopes, hextra, t, _, hparse, hclaims, htold⟩

end Issuer
end AssertionGrant
