import AssertionGrant.Data.Base64Url

/-! Bytes in URL-safe letters read back as they were, and no letter is a dot or a padding sign. -/

namespace AssertionGrant.Base64Url

theorem index?_letter {n : Nat} (h : n < 64) : index? (letter n) = some n := by
  have hall : ∀ n < 64, index? (letter n) = some n := by decide +kernel
  exact hall n h

theorem letter_ne {n : Nat} (h : n < 64) : letter n ≠ '.' ∧ letter n ≠ '=' := by
  have hall : ∀ n < 64, letter n ≠ '.' ∧ letter n ≠ '=' := by decide +kernel
  exact hall n h

theorem exists_letter (bytes : Bytes) : ∀ c ∈ encodeChars bytes, ∃ n < 64, c = letter n := by
  induction bytes using encodeChars.induct with
  | case1 a b c rest ih =>
    have ha := a.toNat_lt
    have hb := b.toNat_lt
    have hc := c.toNat_lt
    rw [encodeChars]
    simp only [List.forall_mem_cons]
    refine ⟨⟨_, ?_, rfl⟩, ⟨_, ?_, rfl⟩, ⟨_, ?_, rfl⟩, ⟨_, ?_, rfl⟩, ih⟩ <;> omega
  | case2 a b =>
    have ha := a.toNat_lt
    have hb := b.toNat_lt
    rw [encodeChars]
    simp only [List.forall_mem_cons]
    refine ⟨⟨_, ?_, rfl⟩, ⟨_, ?_, rfl⟩, ⟨_, ?_, rfl⟩, nofun⟩ <;> omega
  | case3 a =>
    have ha := a.toNat_lt
    rw [encodeChars]
    simp only [List.forall_mem_cons]
    refine ⟨⟨_, ?_, rfl⟩, ⟨_, ?_, rfl⟩, nofun⟩ <;> omega
  | case4 => nofun

theorem unpadded_encodeChars (bytes : Bytes) :
    unpadded (encodeChars bytes) = encodeChars bytes := by
  have hnone : ∀ c ∈ (encodeChars bytes).reverse, c ≠ '=' := by
    intro c hc
    obtain ⟨n, hn, rfl⟩ := exists_letter bytes c (List.mem_reverse.mp hc)
    exact (letter_ne hn).2
  unfold unpadded
  split
  · split
    · next h => exact absurd rfl (hnone '=' (h ▸ List.mem_cons_self))
    · next h => exact absurd rfl (hnone '=' (h ▸ List.mem_cons_self))
    · rfl
  · rfl

theorem byte_eq {b : UInt8} {n : Nat} (h : n = b.toNat) : byte n = b := by
  rw [h]
  exact UInt8.ofNat_toNat

theorem mapM_encodeChars (bytes : Bytes) :
    ∃ indices, (encodeChars bytes).mapM index? = some indices ∧
      decodeIndices indices = some bytes := by
  -- The induction is on groups of three bytes; a shorter group ends the bytes.
  induction bytes using encodeChars.induct with
  | case1 a b c rest ih =>
    have ha := a.toNat_lt
    have hb := b.toNat_lt
    have hc := c.toNat_lt
    obtain ⟨indices, hindices, hrest⟩ := ih
    obtain ⟨n, hn⟩ : ∃ n, a.toNat * 65536 + b.toNat * 256 + c.toNat = n := ⟨_, rfl⟩
    refine ⟨n / 262144 :: n / 4096 % 64 :: n / 64 % 64 :: n % 64 :: indices, ?_, ?_⟩
    · rw [encodeChars, hn]
      simp only [List.mapM_cons, hindices]
      rw [index?_letter (by omega), index?_letter (by omega), index?_letter (by omega),
        index?_letter (by omega)]
      rfl
    · rw [decodeIndices, hrest, byte_eq (b := a) (by omega), byte_eq (b := b) (by omega),
        byte_eq (b := c) (by omega)]
      rfl
  | case2 a b =>
    have ha := a.toNat_lt
    have hb := b.toNat_lt
    obtain ⟨n, hn⟩ : ∃ n, a.toNat * 1024 + b.toNat * 4 = n := ⟨_, rfl⟩
    refine ⟨[n / 4096, n / 64 % 64, n % 64], ?_, ?_⟩
    · rw [encodeChars, hn]
      simp only [List.mapM_cons, List.mapM_nil]
      rw [index?_letter (by omega), index?_letter (by omega), index?_letter (by omega)]
      rfl
    · rw [decodeIndices, if_pos (by omega), byte_eq (b := a) (by omega),
        byte_eq (b := b) (by omega)]
  | case3 a =>
    have ha := a.toNat_lt
    obtain ⟨n, hn⟩ : ∃ n, a.toNat * 16 = n := ⟨_, rfl⟩
    refine ⟨[n / 64, n % 64], ?_, ?_⟩
    · rw [encodeChars, hn]
      simp only [List.mapM_cons, List.mapM_nil]
      rw [index?_letter (by omega), index?_letter (by omega)]
      rfl
    · rw [decodeIndices, if_pos (by omega), byte_eq (b := a) (by omega)]
  | case4 => exact ⟨[], rfl, rfl⟩

theorem decodeChars_encodeChars (bytes : Bytes) : decodeChars (encodeChars bytes) = some bytes := by
  obtain ⟨indices, hindices, hbytes⟩ := mapM_encodeChars bytes
  unfold decodeChars
  rw [unpadded_encodeChars, hindices]
  exact hbytes

end AssertionGrant.Base64Url
