import AssertionGrant.Proofs.Asymmetric
import AssertionGrant.Proofs.Padding

/-! Settings from an environment. They are what the trimmed values spell, if that passes the check. A
count of seconds beyond the longest span is an overflow, and every other environment is refused for a
value. Blanks around values, empty items of the list and the case of flags make no difference. -/

namespace AssertionGrant

namespace Span

def Fits (seconds : Int) : Prop := -dayLimit ≤ seconds / 86400 ∧ seconds / 86400 ≤ dayLimit

theorem ofSeconds?_of_fits {n : Int} (h : Fits n) : ofSeconds? n = .ok (ofSeconds n) := by
  have hdays : n * 1000000 / microsPerDay = n / 86400 :=
    Int.mul_ediv_mul_of_pos_left n 86400 (by decide)
  obtain ⟨hlow, hhigh⟩ := h
  unfold dayLimit at hlow hhigh
  unfold ofSeconds? ofMicros?
  dsimp only
  rw [hdays, if_neg (by omega), if_neg (by unfold dayLimit; omega)]
  rfl

theorem exists_fault_of_not_fits {n : Int} (h : ¬ Fits n) : ∃ f, ofSeconds? n = .error f := by
  have hdays : n * 1000000 / microsPerDay = n / 86400 :=
    Int.mul_ediv_mul_of_pos_left n 86400 (by decide)
  unfold ofSeconds? ofMicros?
  dsimp only
  rw [hdays]
  split
  · exact ⟨_, rfl⟩
  · split
    · exact ⟨_, rfl⟩
    · next hdays => exact absurd (by unfold Fits; omega) h

end Span

namespace Environment
open Text

variable {env env' : Environment} {name : Text}

def text (env : Environment) (name : Text) : Text := (env.get? name).getD ""

theorem value_eq (env : Environment) (name : Text) : env.value name = trim (env.text name) := rfl

/-- Lists with the same items, but for empty ones and for blanks around them. A blank text is no list
at all, and like another blank one only. -/
structure SameList (s t : Text) : Prop where
  blank : (∀ c ∈ s, isBlank c = true) ↔ ∀ c ∈ t, isBlank c = true
  items : ∃ items items', Written items s ∧ Written items' t ∧
    significant items = significant items'

structure Alike (lead : Text) (env env' : Environment) : Prop where
  texts : ∀ name ∈ ["TOKEN_URL", "JWT_MAX_DURATION", "ACCESS_TOKEN_LIFESPAN"],
    ∃ core, Padded core (env.text (lead ++ name)) ∧ Padded core (env'.text (lead ++ name))
  flags : ∀ name ∈ ["SKIP_CLIENT_AUTH", "JWT_ID_OPTIONAL", "JWT_ISSUED_DATE_OPTIONAL",
      "MATCH_REQUESTED_AUDIENCE"],
    ∃ word word', Padded word (env.text (lead ++ name)) ∧ Padded word' (env'.text (lead ++ name)) ∧
      asciiLower word' = asciiLower word
  algorithms : SameList (env.text (lead ++ "ALGORITHMS")) (env'.text (lead ++ "ALGORITHMS"))

theorem flag_congr {word word' : Text} (h : Padded word (env.text name))
    (h' : Padded word' (env'.text name)) (hlower : asciiLower word' = asciiLower word) :
    env'.flag name = env.flag name := by
  have hvalue : asciiLower (env'.value name) = asciiLower (env.value name) := by
    rw [value_eq, value_eq, h.trim_eq, h'.trim_eq, ← trim_asciiLower, ← trim_asciiLower, hlower]
  unfold flag
  rw [hvalue]

theorem algorithmsFrom_eq (env : Environment) (name : Text) : Settings.algorithmsFrom env name =
    if env.value name = [] then defaultAlgorithms
    else significant (items (env.text name)) := by
  rw [(padded_trim (env.text name)).significant_eq]
  unfold Settings.algorithmsFrom
  simp only [List.isEmpty_iff]
  rfl

theorem algorithmsFrom_congr (h : SameList (env.text name) (env'.text name)) :
    Settings.algorithmsFrom env' name = Settings.algorithmsFrom env name := by
  have hblank : env'.value name = [] ↔ env.value name = [] := by
    rw [value_eq, value_eq, trim_eq_nil_iff, trim_eq_nil_iff, h.blank]
  obtain ⟨items, items', hs, ht, hitems⟩ := h.items
  rw [algorithmsFrom_eq, algorithmsFrom_eq, hs.significant_eq, ht.significant_eq, hitems]
  simp only [hblank]

end Environment

namespace Settings
open Text Environment

variable {lead name : Text} {env env' : Environment} {default span maxDuration lifespan : Span}
  {s : Settings}

inductive Lasts (text : Text) (default : Span) : Span → Prop
  | unset (h : text = []) : Lasts text default default
  | seconds {n : Int} (hne : text ≠ []) (hn : Numeral.readInt text = .ok n) (hfits : Span.Fits n) :
      Lasts text default (.ofSeconds n)

def Overlong (text : Text) : Prop :=
  text ≠ [] ∧ ∃ n, Numeral.readInt text = .ok n ∧ ¬ Span.Fits n

theorem secondsFrom_eq_ok :
    secondsFrom env name default = .ok span ↔ Lasts (env.value name) default span := by
  unfold secondsFrom
  dsimp only
  split
  · next hempty =>
    have hempty := List.isEmpty_iff.mp hempty
    rw [Except.ok.injEq]
    constructor
    · rintro rfl
      exact .unset hempty
    · intro h
      cases h with
      | unset => rfl
      | seconds hne => exact absurd hempty hne
  · next hne =>
    have hne : env.value name ≠ [] := fun h => hne (List.isEmpty_iff.mpr h)
    constructor
    · intro h
      cases hn : Numeral.readInt (env.value name) with
      | error f =>
        rw [hn] at h
        cases h
      | ok n =>
        rw [hn] at h
        by_cases hfits : Span.Fits n
        · dsimp only at h
          rw [Span.ofSeconds?_of_fits hfits] at h
          obtain rfl := Except.ok.inj h
          exact .seconds hne hn hfits
        · obtain ⟨f, hf⟩ := Span.exists_fault_of_not_fits hfits
          dsimp only at h
          rw [hf] at h
          cases h
    · intro h
      cases h with
      | unset hempty => exact absurd hempty hne
      | seconds _ hn hfits =>
        rw [hn]
        dsimp only
        rw [Span.ofSeconds?_of_fits hfits]
        rfl

theorem secondsFrom_eq_span :
    (∃ f, secondsFrom env name default = .error (.span f)) ↔ Overlong (env.value name) := by
  unfold secondsFrom Overlong
  dsimp only
  split
  · next hempty => simp [List.isEmpty_iff.mp hempty]
  · next hne =>
    have hne : env.value name ≠ [] := fun h => hne (List.isEmpty_iff.mpr h)
    cases hn : Numeral.readInt (env.value name) with
    | error f => simp
    | ok n =>
      by_cases hfits : Span.Fits n
      · simp [Span.ofSeconds?_of_fits hfits, hfits, Except.mapError]
      · obtain ⟨f, hf⟩ := Span.exists_fault_of_not_fits hfits
        simp [hf, hfits, hne, Except.mapError]

def drafted (lead : Text) (env : Environment) (maxDuration lifespan : Span) : Settings where
  tokenUrl := env.value (lead ++ "TOKEN_URL")
  skipClientAuth := env.flag (lead ++ "SKIP_CLIENT_AUTH")
  jwtIdOptional := env.flag (lead ++ "JWT_ID_OPTIONAL")
  issuedAtOptional := env.flag (lead ++ "JWT_ISSUED_DATE_OPTIONAL")
  maxDuration := maxDuration
  lifespan := lifespan
  algorithms := algorithmsFrom env (lead ++ "ALGORITHMS")
  matchRequestedAudience := env.flag (lead ++ "MATCH_REQUESTED_AUDIENCE")

theorem ofEnvironment_eq (lead : Text) (env : Environment) : ofEnvironment lead env =
    if env.value (lead ++ "TOKEN_URL") = [] then .error (.unset (lead ++ "TOKEN_URL"))
    else secondsFrom env (lead ++ "JWT_MAX_DURATION") (.ofSeconds 86400) >>= fun maxDuration =>
      secondsFrom env (lead ++ "ACCESS_TOKEN_LIFESPAN") (.ofSeconds 3600) >>= fun lifespan =>
      (drafted lead env maxDuration lifespan).check.mapError .settings := by
  unfold ofEnvironment
  simp only [List.isEmpty_iff]
  split <;> rfl

def Spelled (lead : Text) (env : Environment) (s : Settings) : Prop :=
  ∃ maxDuration lifespan,
    Lasts (env.value (lead ++ "JWT_MAX_DURATION")) (.ofSeconds 86400) maxDuration ∧
      Lasts (env.value (lead ++ "ACCESS_TOKEN_LIFESPAN")) (.ofSeconds 3600) lifespan ∧
      s = drafted lead env maxDuration lifespan

/-- An address is set, and the first of the two spans that is no number of seconds in reach has too
many of them. -/
def Overruns (lead : Text) (env : Environment) : Prop :=
  env.value (lead ++ "TOKEN_URL") ≠ [] ∧ (Overlong (env.value (lead ++ "JWT_MAX_DURATION")) ∨
    (∃ span, Lasts (env.value (lead ++ "JWT_MAX_DURATION")) (.ofSeconds 86400) span) ∧
      Overlong (env.value (lead ++ "ACCESS_TOKEN_LIFESPAN")))

theorem ofEnvironment_eq_ok :
    ofEnvironment lead env = .ok s ↔ Spelled lead env s ∧ s.check = .ok s := by
  rw [ofEnvironment_eq]
  split
  · next hunset =>
    refine ⟨nofun, ?_⟩
    rintro ⟨⟨maxDuration, lifespan, -, -, rfl⟩, hcheck⟩
    obtain ⟨-, hurl, -⟩ := check_eq_ok.mp hcheck
    unfold drafted at hurl
    rw [hunset] at hurl
    cases hurl
  · simp only [bind_eq_ok, secondsFrom_eq_ok, mapError_eq_ok]
    constructor
    · rintro ⟨maxDuration, hmax, lifespan, hlife, hcheck⟩
      obtain ⟨rfl, -⟩ := check_eq_ok.mp hcheck
      exact ⟨⟨maxDuration, lifespan, hmax, hlife, rfl⟩, hcheck⟩
    · rintro ⟨⟨maxDuration, lifespan, hmax, hlife, rfl⟩, hcheck⟩
      exact ⟨maxDuration, hmax, lifespan, hlife, hcheck⟩

theorem ofEnvironment_eq_span :
    (∃ f, ofEnvironment lead env = .error (.span f)) ↔ Overruns lead env := by
  have hcheck (p : Settings) (f : Span.Fault) :
      p.check.mapError EnvironmentFault.settings ≠ .error (.span f) := by
    rw [Ne, mapError_eq_error]
    simp
  rw [ofEnvironment_eq]
  unfold Overruns
  split
  · next hunset => simp [hunset]
  · next hset =>
    constructor
    · rintro ⟨f, h⟩
      refine ⟨hset, ?_⟩
      rcases bind_eq_error.mp h with h | ⟨maxDuration, hmax, h⟩
      · exact .inl (secondsFrom_eq_span.mp ⟨f, h⟩)
      rcases bind_eq_error.mp h with h | ⟨lifespan, -, h⟩
      · exact .inr ⟨⟨maxDuration, secondsFrom_eq_ok.mp hmax⟩, secondsFrom_eq_span.mp ⟨f, h⟩⟩
      · exact absurd h (hcheck _ f)
    · rintro ⟨-, h | ⟨⟨maxDuration, hmax⟩, h⟩⟩
      · obtain ⟨f, hf⟩ := secondsFrom_eq_span.mpr h
        exact ⟨f, bind_eq_error.mpr (.inl hf)⟩
      · obtain ⟨f, hf⟩ := secondsFrom_eq_span.mpr h
        have hmax := secondsFrom_eq_ok.mpr hmax
        exact ⟨f, bind_eq_error.mpr (.inr ⟨maxDuration, hmax, bind_eq_error.mpr (.inl hf)⟩)⟩

theorem EnvironmentFault.kind_eq_overflow {f : EnvironmentFault} :
    f.toFault.kind = .overflow ↔ ∃ g, f = .span g := by
  cases f <;> simp [toFault]

theorem EnvironmentFault.kind_eq_value {f : EnvironmentFault} :
    f.toFault.kind = .value ↔ ¬ f.toFault.kind = .overflow := by
  cases f <;> simp [toFault]

theorem overflows_iff : (∃ f, ofEnvironment lead env = .error f ∧ f.toFault.kind = .overflow) ↔
    Overruns lead env := by
  rw [← ofEnvironment_eq_span]
  constructor
  · rintro ⟨f, h, hkind⟩
    obtain ⟨g, rfl⟩ := EnvironmentFault.kind_eq_overflow.mp hkind
    exact ⟨g, h⟩
  · rintro ⟨g, h⟩
    exact ⟨_, h, EnvironmentFault.kind_eq_overflow.mpr ⟨g, rfl⟩⟩

theorem refused_iff : (∃ f, ofEnvironment lead env = .error f ∧ f.toFault.kind = .value) ↔
    ¬ Overruns lead env ∧ ¬ ∃ s, Spelled lead env s ∧ s.check = .ok s := by
  simp only [← overflows_iff, ← ofEnvironment_eq_ok, EnvironmentFault.kind_eq_value]
  cases ofEnvironment lead env with
  | ok s => simp
  | error f => simp

theorem secondsFrom_congr (h : ∃ core, Padded core (env.text name) ∧ Padded core (env'.text name))
    (default : Span) : secondsFrom env' name default = secondsFrom env name default := by
  have hvalue : env'.value name = env.value name := (trim_eq_trim_iff.mpr h).symm
  unfold secondsFrom
  rw [hvalue]

theorem ofEnvironment_congr (h : env.Alike lead env') :
    ofEnvironment lead env' = ofEnvironment lead env := by
  have hurl : env'.value (lead ++ "TOKEN_URL") = env.value (lead ++ "TOKEN_URL") :=
    (trim_eq_trim_iff.mpr (h.texts "TOKEN_URL" (by decide))).symm
  have hflag {name : String} (hname : name ∈ ["SKIP_CLIENT_AUTH", "JWT_ID_OPTIONAL",
      "JWT_ISSUED_DATE_OPTIONAL", "MATCH_REQUESTED_AUDIENCE"]) :
      env'.flag (lead ++ name) = env.flag (lead ++ name) := by
    obtain ⟨word, word', hword, hword', hlower⟩ := h.flags name hname
    exact flag_congr hword hword' hlower
  have hdrafted : drafted lead env' = drafted lead env := by
    funext maxDuration lifespan
    unfold drafted
    rw [hurl, hflag (by decide), hflag (by decide), hflag (by decide), hflag (by decide),
      algorithmsFrom_congr h.algorithms]
  rw [ofEnvironment_eq, ofEnvironment_eq, hurl, hdrafted,
    secondsFrom_congr (h.texts "JWT_MAX_DURATION" (by decide)),
    secondsFrom_congr (h.texts "ACCESS_TOKEN_LIFESPAN" (by decide))]

structure Sound (s : Settings) : Prop where
  tokenUrl : ¬ ∀ c ∈ s.tokenUrl, isBlank c = true
  maxDuration : 0 < s.maxDuration.micros
  lifespan : 0 < s.lifespan.micros
  algorithms : s.algorithms ≠ []
  asymmetric : ∀ name ∈ s.algorithms, asciiLower name ≠ "none" ∧ ¬ Text.ofString "HS" <+: name

theorem check_iff_sound : s.check = .ok s ↔ s.Sound := by
  have hsymmetric (name : Text) : isSymmetric name = false ↔
      asciiLower name ≠ "none" ∧ ¬ Text.ofString "HS" <+: name := by
    unfold isSymmetric
    rw [Bool.or_eq_false_iff, beq_eq_false_iff_ne, ← List.isPrefixOf_iff_prefix,
      Bool.not_eq_true]
  have hurl : (trim s.tokenUrl).isEmpty = false ↔ ¬ ∀ c ∈ s.tokenUrl, isBlank c = true := by
    rw [← trim_eq_nil_iff, ← List.isEmpty_iff, Bool.not_eq_true]
  rw [check_eq_ok]
  simp only [true_and, hsymmetric, hurl]
  exact ⟨fun ⟨h₁, h₂, h₃, h₄, h₅⟩ => ⟨h₁, h₂, h₃, h₄, h₅⟩,
    fun h => ⟨h.1, h.2, h.3, h.4, h.5⟩⟩

/-- An environment gives the settings that its trimmed values spell exactly if they pass their check,
and what passes is sound. It overflows exactly if a span is set to more seconds than a span has; any
other is refused for a value. Environments that are alike have the same outcome. -/
theorem environment_outcomes (lead : Text) (env : Environment) :
    (∀ s, ofEnvironment lead env = .ok s ↔ Spelled lead env s ∧ s.check = .ok s) ∧
      (∀ s : Settings, s.check = .ok s ↔ s.Sound) ∧
      ((∃ f, ofEnvironment lead env = .error f ∧ f.toFault.kind = .value) ↔
        ¬ Overruns lead env ∧ ¬ ∃ s, Spelled lead env s ∧ s.check = .ok s) ∧
      ((∃ f, ofEnvironment lead env = .error f ∧ f.toFault.kind = .overflow) ↔
        Overruns lead env) ∧
      ∀ env', env.Alike lead env' → ofEnvironment lead env' = ofEnvironment lead env :=
  ⟨fun _ => ofEnvironment_eq_ok, fun _ => check_iff_sound, refused_iff, overflows_iff,
    fun _ => ofEnvironment_congr⟩

end Settings

namespace Specimen
open Text

def longEnvironment : Environment :=
  [("TOKEN_URL", "u"), ("JWT_MAX_DURATION", "99999999999999"), ("SKIP_CLIENT_AUTH", "yes"),
    ("ALGORITHMS", "RS256,ES256")]

def looseEnvironment : Environment :=
  [("TOKEN_URL", " u"), ("JWT_MAX_DURATION", "99999999999999\t"), ("SKIP_CLIENT_AUTH", "YES "),
    ("ALGORITHMS", "RS256,, ES256")]

theorem looseEnvironment_alike : longEnvironment.Alike "" looseEnvironment where
  texts := by
    simp only [List.forall_mem_cons]
    refine ⟨⟨"u", .refl _, [' '], [], List.forall_mem_singleton.mpr rfl, by decide⟩,
      ⟨"99999999999999", .refl _, [], ['\t'], List.forall_mem_singleton.mpr rfl, by decide⟩,
      ⟨"", .refl _, .refl _⟩, nofun⟩
  flags := by
    simp only [List.forall_mem_cons]
    refine ⟨⟨"yes", "YES", .refl _, ⟨[], [' '], List.forall_mem_singleton.mpr rfl, by decide⟩,
        by decide⟩,
      ⟨"", "", .refl _, .refl _, rfl⟩, ⟨"", "", .refl _, .refl _, rfl⟩,
      ⟨"", "", .refl _, .refl _, rfl⟩, nofun⟩
  algorithms :=
    { blank := by
        refine iff_of_false (fun h => ?_) (fun h => ?_)
        · exact absurd (h 'R' (by decide)) (by decide)
        · exact absurd (h 'R' (by decide)) (by decide)
      items := ⟨["RS256", "ES256"], ["RS256", "", " ES256"], ⟨by decide, by decide⟩,
        ⟨by decide, by decide⟩, by decide⟩ }

theorem longEnvironment_overflows :
    Settings.Overruns "" longEnvironment ∧
      (∃ f, Settings.ofEnvironment "" longEnvironment = .error f ∧ f.toFault.kind = .overflow) ∧
      longEnvironment.Alike "" looseEnvironment ∧
      Settings.ofEnvironment "" looseEnvironment = Settings.ofEnvironment "" longEnvironment := by
  have hlong : Settings.Overruns "" longEnvironment :=
    ⟨by decide, .inl ⟨by decide, 99999999999999, by decide +kernel, by unfold Span.Fits; decide⟩⟩
  obtain ⟨-, -, -, hoverflow, halike⟩ := Settings.environment_outcomes "" longEnvironment
  exact ⟨hlong, hoverflow.mpr hlong, looseEnvironment_alike, halike _ looseEnvironment_alike⟩

end Specimen
end AssertionGrant
