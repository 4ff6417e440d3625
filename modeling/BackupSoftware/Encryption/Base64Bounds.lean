import BackupSoftware.Encryption.Base64

/-!
# What the base64 decoder reads

The decoder looks for the NUL only at the first character of a group, and reads the
other three whatever they are. It stays inside a string that ends with a whole group,
and inside one where a `=` stops it before the end.
-/

namespace BackupSoftware.Encryption

/-- Decoding the string `s`, NUL included, ends without a read behind the NUL, writes at most
three bytes for each group begun, and keeps its index `i` inside the values of an `int`. -/
def DecodesInside (s : List UInt8) : Prop :=
  ∃ j bindata, libBase64Decode (s ++ [0]) = .ok (j, bindata) ∧ j = bindata.length ∧
    j ≤ 3 * ((s.length + 3) / 4) ∧ decodeIndex (s ++ [0]) < 2 ^ 31

/-- There is a `=` in the third or fourth place of a group, at an index below `limit`. -/
def PadBelow (limit : Nat) (s : List UInt8) : Prop :=
  ∃ p, p < limit ∧ 2 ≤ p % 4 ∧ s[p]? = some padChar

/-- Every group gives three bytes at most. -/
theorem length_of_decodeGroups {buf bindata : List UInt8} (h : decodeGroups buf = .ok bindata) :
    bindata.length ≤ 3 * ((buf.length + 2) / 4) := by
  induction buf using decodeGroups.induct generalizing bindata with
  | case1 => cases h
  | case2 rest =>
    rw [decodeGroups_nul] at h
    cases h
    exact Nat.zero_le _
  | case3 c0 hne c1 c3 rest =>
    rw [decodeGroups, if_neg hne, if_pos rfl] at h
    cases h
    simp only [List.length_cons, List.length_nil]
    omega
  | case4 c0 hne c1 c2 rest h2 =>
    rw [decodeGroups, if_neg hne, if_neg h2, if_pos rfl] at h
    cases h
    simp only [List.length_cons, List.length_nil]
    omega
  | case5 c0 hne c1 c2 c3 rest h2 h3 ih =>
    rw [decodeGroups, if_neg hne, if_neg h2, if_neg h3] at h
    obtain ⟨tail, htail, rfl⟩ := exists_of_map_ok h
    have hle := ih htail
    simp only [List.length_append, List.length_cons, List.length_nil]
    omega
  | case6 c0 rest hne hshort =>
    rw [decodeGroups_short hne hshort] at h
    cases h

/-- A group that no `=` stops. -/
theorem padBelow_group {c0 c1 c2 c3 : UInt8} {rest : List UInt8} (h2 : c2 ≠ padChar)
    (h3 : c3 ≠ padChar) {limit : Nat} :
    PadBelow (limit + 4) (c0 :: c1 :: c2 :: c3 :: rest) ↔ PadBelow limit rest := by
  constructor
  · intro h
    obtain ⟨p, hlt, hp, hget⟩ := h
    match p with
    | 0 => omega
    | 1 => omega
    | 2 => exact absurd (Option.some.inj hget) h2
    | 3 => exact absurd (Option.some.inj hget) h3
    | p + 4 => exact ⟨p, by omega, by omega, hget⟩
  · intro h
    obtain ⟨p, hlt, hp, hget⟩ := h
    exact ⟨p + 4, by omega, by omega, hget⟩

/-- A group that a `=` stops. -/
theorem padBelow_iff_of_stop {s : List UInt8} {q : Nat} (hq : 2 ≤ q) (hq4 : q < 4)
    (hget : s[q]? = some padChar) {limit : Nat} (h4 : 4 ∣ limit) :
    PadBelow limit s ∨ (s.length % 4 = 0 ∧ s.length < limit) ↔ 0 < limit := by
  constructor
  · intro h
    rcases h with ⟨p, hlt, -⟩ | ⟨-, hlt⟩
    · omega
    · omega
  · intro hpos
    exact Or.inl ⟨q, by omega, by omega, hget⟩

/-- There the loop ends in its first round. -/
theorem decodeGroups_stop {c0 c1 c2 c3 : UInt8} {tail : List UInt8} (hne : ¬ c0 = 0)
    (hpad : c2 = padChar ∨ c3 = padChar) {limit : Nat} :
    (∃ bindata, decodeGroups (c0 :: c1 :: c2 :: c3 :: tail) = .ok bindata ∧
      decodeIndex (c0 :: c1 :: c2 :: c3 :: tail) < limit) ↔ 0 < limit := by
  rw [decodeIndex_stop hpad]
  constructor
  · intro h
    obtain ⟨bindata, -, hlt⟩ := h
    exact hlt
  · intro hpos
    rw [decodeGroups, if_neg hne]
    by_cases h2 : c2 = padChar
    · exact ⟨_, if_pos h2, hpos⟩
    · have h3 : c3 = padChar := hpad.resolve_left h2
      exact ⟨_, by rw [if_neg h2, if_pos h3], hpos⟩

/-- One to three characters without a `=` as the third: the decoder leaves the string. -/
theorem decodeGroups_cut {s : List UInt8} (hnul : 0 ∉ s) (hne : s ≠ []) (h4 : s.length < 4)
    (hpad : s[2]? ≠ some padChar) : decodeGroups (s ++ [0]) = .error .outside := by
  match s with
  | [] => exact absurd rfl hne
  | [c0] =>
    have h0 : ¬ c0 = 0 := by
      intro heq
      subst heq
      exact hnul List.mem_cons_self
    exact decodeGroups_short h0 (by intro _ _ _ _ h; cases h)
  | [c0, c1] =>
    have h0 : ¬ c0 = 0 := by
      intro heq
      subst heq
      exact hnul List.mem_cons_self
    exact decodeGroups_short h0 (by intro _ _ _ _ h; cases h)
  | [c0, c1, c2] =>
    have h0 : ¬ c0 = 0 := by
      intro heq
      subst heq
      exact hnul List.mem_cons_self
    have h2 : ¬ c2 = padChar := by
      intro heq
      subst heq
      exact hpad rfl
    simp only [List.cons_append, List.nil_append]
    rw [decodeGroups, if_neg h0, if_neg h2, if_neg (by decide), decodeGroups]
    rfl
  | c0 :: c1 :: c2 :: c3 :: tail =>
    simp only [List.length_cons] at h4
    omega

/-- The last case of the loop: fewer than four characters are left. -/
theorem length_of_short {rest : List UInt8}
    (h : ∀ c1 c2 c3 tail, rest = c1 :: c2 :: c3 :: tail → False) : rest.length < 3 := by
  by_contra hlong
  cases rest with
  | nil => simp at hlong
  | cons c1 rest =>
    cases rest with
    | nil => simp at hlong
    | cons c2 rest =>
      cases rest with
      | nil => simp at hlong
      | cons c3 tail => exact h c1 c2 c3 tail rfl

theorem eq_pair_of_pad {c0 : UInt8} {rest : List UInt8} (hlen : rest.length < 3)
    (hpad : (c0 :: rest)[2]? = some padChar) : ∃ c1, rest = [c1, padChar] := by
  cases rest with
  | nil => cases hpad
  | cons c1 rest =>
    cases rest with
    | nil => cases hpad
    | cons c2 rest =>
      obtain rfl : rest = [] := List.eq_nil_of_length_eq_zero (by simp at hlen; omega)
      obtain rfl : c2 = padChar := Option.some.inj hpad
      exact ⟨c1, rfl⟩

/-- The decoder reads a whole string without leaving it if a `=` stops it, or if the string
ends where a group ends, and reaches no index from `limit` on. -/
theorem decodeGroups_inside_iff {s : List UInt8} (hnul : 0 ∉ s) {limit : Nat} (h4 : 4 ∣ limit) :
    (∃ bindata, decodeGroups (s ++ [0]) = .ok bindata ∧ decodeIndex (s ++ [0]) < limit) ↔
      PadBelow limit s ∨ (s.length % 4 = 0 ∧ s.length < limit) := by
  induction s using decodeGroups.induct generalizing limit with
  | case1 =>
    constructor
    · intro hcase
      obtain ⟨bindata, -, hlt⟩ := hcase
      exact Or.inr ⟨rfl, hlt⟩
    · intro hcase
      rcases hcase with ⟨p, -, -, hget⟩ | ⟨-, hlt⟩
      · cases hget
      · exact ⟨[], decodeGroups_nul [], hlt⟩
  | case2 rest => exact absurd List.mem_cons_self hnul
  | case3 c0 hne c1 c3 rest =>
    rw [padBelow_iff_of_stop (q := 2) (by decide) (by decide) rfl h4]
    exact decodeGroups_stop hne (Or.inl rfl)
  | case4 c0 hne c1 c2 rest h2 =>
    rw [padBelow_iff_of_stop (q := 3) (by decide) (by decide) rfl h4]
    exact decodeGroups_stop hne (Or.inr rfl)
  | case5 c0 hne c1 c2 c3 rest h2 h3 ih =>
    have hindex : decodeIndex (c0 :: c1 :: c2 :: c3 :: (rest ++ [0])) =
        decodeIndex (rest ++ [0]) + 4 := decodeIndex_group hne h2 h3
    have hrest : 0 ∉ rest := by
      intro hmem
      exact hnul (by simp [hmem])
    simp only [List.cons_append, hindex, List.length_cons]
    obtain ⟨k, rfl⟩ := h4
    cases k with
    | zero =>
      constructor
      · intro hcase
        obtain ⟨bindata, -, hlt⟩ := hcase
        omega
      · intro hcase
        rcases hcase with ⟨p, hlt, -⟩ | ⟨-, hlt⟩
        · omega
        · omega
    | succ k =>
      rw [Nat.mul_succ, padBelow_group h2 h3]
      have hih := ih hrest (Nat.dvd_mul_right 4 k)
      constructor
      · intro hcase
        obtain ⟨bindata, hok, hlt⟩ := hcase
        rw [decodeGroups, if_neg hne, if_neg h2, if_neg h3] at hok
        obtain ⟨tail, htail, -⟩ := exists_of_map_ok hok
        rcases hih.mp ⟨tail, htail, by omega⟩ with hpad | ⟨hmod, hlen⟩
        · exact Or.inl hpad
        · exact Or.inr ⟨by omega, by omega⟩
      · intro h
        have h' : PadBelow (4 * k) rest ∨ (rest.length % 4 = 0 ∧ rest.length < 4 * k) := by
          rcases h with hpad | ⟨hmod, hlen⟩
          · exact Or.inl hpad
          · exact Or.inr ⟨by omega, by omega⟩
        obtain ⟨tail, htail, hlt⟩ := hih.mpr h'
        rw [decodeGroups, if_neg hne, if_neg h2, if_neg h3, htail]
        exact ⟨_, rfl, by omega⟩
  | case6 c0 rest hne hshort =>
    have hlen : (c0 :: rest).length < 4 := by
      rw [List.length_cons]
      exact Nat.succ_lt_succ (length_of_short hshort)
    by_cases hpad : (c0 :: rest)[2]? = some padChar
    · rw [padBelow_iff_of_stop (by decide) (by decide) hpad h4]
      obtain ⟨c1, rfl⟩ := eq_pair_of_pad (length_of_short hshort) hpad
      exact decodeGroups_stop hne (Or.inl rfl)
    · constructor
      · intro hcase
        obtain ⟨bindata, hok, -⟩ := hcase
        rw [decodeGroups_cut hnul (List.cons_ne_nil _ _) hlen hpad] at hok
        cases hok
      · intro hcase
        rcases hcase with ⟨p, -, hp, hget⟩ | ⟨hmod, -⟩
        · have hlt := (List.getElem?_eq_some_iff.mp hget).1
          have hp2 : p = 2 := by omega
          exact absurd (hp2 ▸ hget) hpad
        · simp only [List.length_cons] at hlen hmod
          omega

/-- The decoder stays inside a string exactly if a `=` in the third or fourth place of a
group stops it, or the string consists of whole groups. -/
theorem decode_stays_inside_iff (s : List UInt8) (hnul : 0 ∉ s) :
    DecodesInside s ↔ PadBelow (2 ^ 31) s ∨ (s.length % 4 = 0 ∧ s.length < 2 ^ 31) := by
  rw [← decodeGroups_inside_iff hnul (by decide)]
  constructor
  · intro h
    obtain ⟨j, bindata, hok, -⟩ := h
    obtain ⟨tail, htail, heq⟩ := exists_of_map_ok hok
    cases heq
    exact ⟨bindata, (libBase64Decode_ok_iff _ bindata).mp hok⟩
  · intro h
    obtain ⟨bindata, hok, hindex⟩ := h
    refine ⟨bindata.length, bindata, ?_, rfl, ?_, hindex⟩
    · exact (libBase64Decode_ok_iff _ bindata).mpr ⟨hok, hindex⟩
    · have hlen := length_of_decodeGroups hok
      rw [List.length_append, List.length_singleton] at hlen
      exact hlen

/-- The string `TWE=`. -/
theorem decode_stays_inside_padded : 0 ∉ ([84, 87, 69, 61] : List UInt8) ∧
    DecodesInside [84, 87, 69, 61] := by
  refine ⟨by decide, (decode_stays_inside_iff [84, 87, 69, 61] (by decide)).mpr ?_⟩
  exact Or.inl ⟨3, by decide, by decide, rfl⟩

/-- The string `A`: the decoder reads two characters behind its NUL. -/
theorem decode_leaves_one_character :
    0 ∉ ([65] : List UInt8) ∧ libBase64Decode ([65] ++ [0]) = .error .outside ∧
      ¬ DecodesInside [65] := by
  have hout : libBase64Decode ([65] ++ [0]) = .error .outside := by decide
  refine ⟨by decide, hout, ?_⟩
  intro h
  obtain ⟨j, bindata, hok, -⟩ := h
  rw [hout] at hok
  cases hok

end BackupSoftware.Encryption
