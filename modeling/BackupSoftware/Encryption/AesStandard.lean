import BackupSoftware.Encryption.AesCipher

/-!
# AES with tables is the cipher on bytes

A word is a column of the state, the four words of a block are the state, and the words
of the key schedule are those of the key expansion. What a round looks up in the forward
tables and adds is the mixed column of the substituted state, and the reverse tables do
the same for the inverse.
-/

namespace BackupSoftware.Encryption

open Library
open Library.Rijndael (addWord addRoundKey rotDown mixColumn invMixColumn mixColumns
  invMixColumns substitution invSubstitution invSbox subWord rotWord roundKey)
open Library.ByteField (xtime mul mul_one_left)

/-- The state that four words are. -/
def columnsOf (x : Quad ULong) : Rijndael.State := x.map columnOf

/-- The words of round keys as columns. -/
def columnAt (rk : List ULong) (j : Nat) : Rijndael.Word := columnOf (word rk j)

theorem addWord_comm (v w : Rijndael.Word) : addWord v w = addWord w v := by
  simp only [addWord, Quad.zip, UInt8.xor_comm]

instance : Std.Commutative addWord := ⟨addWord_comm⟩

instance : Std.Associative addWord where
  assoc u v w := by simp only [addWord, Quad.zip, UInt8.xor_assoc]

/-- Four columns with one byte each, rotated to their rows, add up to the mixed column. -/
theorem mixColumn_eq_add (a b c d : UInt8) : mixColumn ⟨a, b, c, d⟩ =
    addWord (addWord (addWord (ftColumn a) (rotDown (ftColumn b)))
      (rotDown (rotDown (ftColumn c)))) (rotDown (rotDown (rotDown (ftColumn d)))) := by
  simp only [mixColumn, Rijndael.circulant, mul_one_left, addWord, Quad.zip, rotDown, ftColumn]

theorem invMixColumn_eq_add (a b c d : UInt8) : invMixColumn ⟨a, b, c, d⟩ =
    addWord (addWord (addWord (rtColumn a) (rotDown (rtColumn b)))
      (rotDown (rotDown (rtColumn c)))) (rotDown (rotDown (rotDown (rtColumn d)))) := by
  simp only [invMixColumn, Rijndael.circulant, addWord, Quad.zip, rotDown, rtColumn]

/-- Tables that hold the column of a byte at the top, and three times the table before
rotated: the four entries for the bytes of a column add up. -/
theorem columnOf_entries {t0 t1 t2 t3 : List ULong} (h1 : t0.map rotr8 = t1)
    (h2 : t1.map rotr8 = t2) (h3 : t2.map rotr8 = t3) {f : UInt8 → Rijndael.Word}
    (h0 : ∀ b : UInt8, columnOf (t0.getD b.toNat 0) = f b) (va vb vc vd : ULong) :
    columnOf (entry t0 va 24 ^^^ entry t1 vb 16 ^^^ entry t2 vc 8 ^^^ entry t3 vd 0) =
      addWord (addWord (addWord (f (columnOf va).a) (rotDown (f (columnOf vb).b)))
          (rotDown (rotDown (f (columnOf vc).c))))
        (rotDown (rotDown (rotDown (f (columnOf vd).d)))) := by
  subst h1 h2 h3
  simp only [columnOf_xor, entry, columnOf_map_rotr8, h0]
  rw [BitVec.ushiftRight_zero]
  rfl

theorem columnOf_forward (va vb vc vd : ULong) :
    columnOf (entry fixedTables.ft0 va 24 ^^^ entry fixedTables.ft1 vb 16
        ^^^ entry fixedTables.ft2 vc 8 ^^^ entry fixedTables.ft3 vd 0) =
      mixColumn ⟨Rijndael.sbox (columnOf va).a, Rijndael.sbox (columnOf vb).b,
        Rijndael.sbox (columnOf vc).c, Rijndael.sbox (columnOf vd).d⟩ := by
  obtain ⟨h1, h2, h3⟩ := map_rotr8_ft
  rw [columnOf_entries h1 h2 h3 columnOf_ft0, mixColumn_eq_add]

theorem columnOf_reverse (va vb vc vd : ULong) :
    columnOf (entry fixedTables.rt0 va 24 ^^^ entry fixedTables.rt1 vb 16
        ^^^ entry fixedTables.rt2 vc 8 ^^^ entry fixedTables.rt3 vd 0) =
      invMixColumn ⟨invSbox (columnOf va).a, invSbox (columnOf vb).b, invSbox (columnOf vc).c,
        invSbox (columnOf vd).d⟩ := by
  obtain ⟨h1, h2, h3⟩ := map_rotr8_rt
  rw [columnOf_entries h1 h2 h3 columnOf_rt0, invMixColumn_eq_add]

theorem xor_reverse (k a b c d : ULong) :
    k ^^^ a ^^^ b ^^^ c ^^^ d = (d ^^^ c ^^^ b ^^^ a) ^^^ k := by
  ac_rfl

theorem xor_first_last (k a b c d : ULong) :
    k ^^^ a ^^^ b ^^^ c ^^^ d = (a ^^^ b ^^^ c ^^^ d) ^^^ k := by
  ac_rfl

/-- Four bytes shifted to their places and added to a word. -/
theorem columnOf_xor_bytes (k : ULong) (a b c d : UInt8) :
    columnOf (k ^^^ (ulong a <<< 24) ^^^ (ulong b <<< 16) ^^^ (ulong c <<< 8) ^^^ ulong d) =
      addWord ⟨a, b, c, d⟩ (columnOf k) := by
  rw [xor_reverse, xor_eq_hexWord, columnOf_xor, columnOf_hexWord]

theorem columnsOf_fround (rk : List ULong) (r : Nat) (y : Quad ULong) :
    columnsOf (fround fixedTables rk r y) =
      addRoundKey (mixColumns (substitution (columnsOf y))) (roundKey (columnAt rk) r) := by
  have hcolumn (k va vb vc vd : ULong) :
      columnOf (k ^^^ entry fixedTables.ft0 va 24 ^^^ entry fixedTables.ft1 vb 16
          ^^^ entry fixedTables.ft2 vc 8 ^^^ entry fixedTables.ft3 vd 0) =
        addWord (mixColumn ⟨Rijndael.sbox (columnOf va).a, Rijndael.sbox (columnOf vb).b,
          Rijndael.sbox (columnOf vc).c, Rijndael.sbox (columnOf vd).d⟩) (columnOf k) := by
    rw [xor_first_last, columnOf_xor, columnOf_forward]
  simp only [columnsOf, Quad.map, fround, hcolumn]
  rfl

theorem columnsOf_rround (rk : List ULong) (r : Nat) (y : Quad ULong) :
    columnsOf (rround fixedTables rk r y) =
      addRoundKey (invMixColumns (invSubstitution (columnsOf y))) (roundKey (columnAt rk) r) := by
  have hcolumn (k va vb vc vd : ULong) :
      columnOf (k ^^^ entry fixedTables.rt0 va 24 ^^^ entry fixedTables.rt1 vb 16
          ^^^ entry fixedTables.rt2 vc 8 ^^^ entry fixedTables.rt3 vd 0) =
        addWord (invMixColumn ⟨invSbox (columnOf va).a, invSbox (columnOf vb).b,
          invSbox (columnOf vc).c, invSbox (columnOf vd).d⟩) (columnOf k) := by
    rw [xor_first_last, columnOf_xor, columnOf_reverse]
  simp only [columnsOf, Quad.map, rround, hcolumn]
  rfl

theorem entry_fsb (v : ULong) (s : Nat) :
    entry fixedTables.fsb v s = ulong (Rijndael.sbox (uchar (v >>> s))) := fsb_eq _

theorem entry_rsb (v : ULong) (s : Nat) :
    entry fixedTables.rsb v s = ulong (invSbox (uchar (v >>> s))) := rsb_eq _

theorem columnsOf_flast (rk : List ULong) (r : Nat) (y : Quad ULong) :
    columnsOf (flast fixedTables rk r y) =
      addRoundKey (substitution (columnsOf y)) (roundKey (columnAt rk) r) := by
  simp only [columnsOf, Quad.map, flast, entry_fsb, columnOf_xor_bytes, BitVec.ushiftRight_zero]
  rfl

theorem columnsOf_rlast (rk : List ULong) (r : Nat) (y : Quad ULong) :
    columnsOf (rlast fixedTables rk r y) =
      addRoundKey (invSubstitution (columnsOf y)) (roundKey (columnAt rk) r) := by
  simp only [columnsOf, Quad.map, rlast, entry_rsb, columnOf_xor_bytes, BitVec.ushiftRight_zero]
  rfl

theorem length_storeWords {rk ws : List ULong} {p : Nat} (h : p + ws.length ≤ rk.length) :
    (storeWords rk p ws).length = rk.length := by
  simp only [storeWords, List.length_append, List.length_take, List.length_drop]
  omega

theorem word_storeWords_before {rk ws : List ULong} {p j : Nat} (h : p ≤ rk.length) (hj : j < p) :
    word (storeWords rk p ws) j = word rk j := by
  unfold word storeWords
  rw [List.append_assoc, List.getD_append _ _ _ _ (by rw [List.length_take]; omega)]
  simp only [List.getD_eq_getElem?_getD, List.getElem?_take_of_lt hj]

theorem word_storeWords_inside (rk : List ULong) {ws : List ULong} {p k : Nat} (h : p ≤ rk.length)
    (hk : k < ws.length) : word (storeWords rk p ws) (p + k) = ws[k] := by
  have hp : (rk.take p).length = p := by
    rw [List.length_take]
    omega
  unfold word storeWords
  rw [List.getD_append _ _ _ _ (by rw [List.length_append, hp]; omega),
    List.getD_append_right _ _ _ _ (by omega), hp, Nat.add_sub_cancel_left,
    List.getD_eq_getElem _ _ hk]

/-- The four bytes of word `i`, as a column. -/
def byteColumn (b : Nat → UInt8) (i : Nat) : Rijndael.Word :=
  ⟨b (4 * i), b (4 * i + 1), b (4 * i + 2), b (4 * i + 3)⟩

theorem columnOf_rcon {i : Nat} (hi : i < 10) :
    columnOf (fixedTables.rcon.getD i 0) = Rijndael.rcon (i + 1) := by
  have h : ∀ i, i < 10 → columnOf (fixedTables.rcon.getD i 0) = Rijndael.rcon (i + 1) := by
    decide
  exact h i hi

theorem columnOf_firstWord {i : Nat} (hi : i < 10) (first last : ULong) :
    columnOf (firstWord fixedTables i first last) = addWord (columnOf first)
      (addWord (subWord (rotWord (columnOf last))) (Rijndael.rcon (i + 1))) := by
  have hbytes : columnOf (firstWord fixedTables i first last) =
      addWord (subWord (rotWord (columnOf last)))
        (columnOf (first ^^^ fixedTables.rcon.getD i 0)) := by
    simp only [firstWord, entry_fsb, columnOf_xor_bytes, BitVec.ushiftRight_zero]
    rfl
  rw [hbytes, columnOf_xor, columnOf_rcon hi]
  ac_rfl

section

variable {nk : Nat} {key : Nat → Rijndael.Word}

/-- The words before index `n` are those of the key expansion. -/
def Expanded (nk : Nat) (key : Nat → Rijndael.Word) (rk : List ULong) (n : Nat) : Prop :=
  rk.length = 64 ∧ ∀ j, j < n → columnAt rk j = Rijndael.expandedWord nk key j

theorem expandedWord_first (hnk : 0 < nk) (i : Nat) :
    Rijndael.expandedWord nk key (nk * i + nk) =
      addWord (Rijndael.expandedWord nk key (nk * i)) (addWord
        (subWord (rotWord (Rijndael.expandedWord nk key (nk * i + (nk - 1)))))
        (Rijndael.rcon (i + 1))) := by
  have hmod : (nk * i + nk) % nk = 0 := by rw [Nat.add_mod_right, Nat.mul_mod_right]
  have hdiv : (nk * i + nk) / nk = i + 1 := by
    rw [Nat.add_div_right _ hnk, Nat.mul_div_cancel_left _ hnk]
  rw [Rijndael.expandedWord, if_neg (by omega)]
  simp only [hmod, hdiv, ↓reduceIte, Nat.add_sub_cancel]
  rw [Nat.add_sub_assoc hnk]

theorem expandedWord_next {i k : Nat} (hk : 0 < k) (hlt : k < nk) (hsub : ¬ (nk > 6 ∧ k = 4)) :
    Rijndael.expandedWord nk key (nk * i + nk + k) =
      addWord (Rijndael.expandedWord nk key (nk * i + k))
        (Rijndael.expandedWord nk key (nk * i + nk + (k - 1))) := by
  have hmod : (nk * i + nk + k) % nk = k := by
    rw [Nat.add_assoc, Nat.mul_add_mod, Nat.add_mod_left, Nat.mod_eq_of_lt hlt]
  rw [Rijndael.expandedWord, if_neg (by omega)]
  simp only [hmod, hsub, ↓reduceIte, Nat.ne_of_gt hk]
  rw [show nk * i + nk + k - nk = nk * i + k by omega, Nat.add_sub_assoc hk]

theorem expandedWord_sub {i : Nat} (hnk : 6 < nk) :
    Rijndael.expandedWord nk key (nk * i + nk + 4) =
      addWord (Rijndael.expandedWord nk key (nk * i + 4))
        (subWord (Rijndael.expandedWord nk key (nk * i + nk + 3))) := by
  have hmod : (nk * i + nk + 4) % nk = 4 := by
    rw [Nat.add_assoc, Nat.mul_add_mod, Nat.add_mod_left, Nat.mod_eq_of_lt (by omega)]
  rw [Rijndael.expandedWord, if_neg (by omega)]
  simp only [hmod, hnk, ↓reduceIte, Nat.reduceEqDiff, and_self]
  rw [show nk * i + nk + 4 - nk = nk * i + 4 by omega,
    show nk * i + nk + 4 - 1 = nk * i + nk + 3 by omega]

/-- A pass that stores the next words of the expansion behind those that are there. -/
theorem Expanded.store {rk : List ULong} {p : Nat} (h : Expanded nk key rk p) (ws : List ULong)
    (hfit : p + ws.length ≤ 64)
    (hws : ∀ k (hk : k < ws.length), columnOf ws[k] = Rijndael.expandedWord nk key (p + k)) :
    Expanded nk key (storeWords rk p ws) (p + ws.length) := by
  obtain ⟨hlen, hwords⟩ := h
  refine ⟨by rw [length_storeWords (by omega), hlen], fun j hj => ?_⟩
  by_cases hlt : j < p
  · rw [columnAt, word_storeWords_before (by omega) hlt]
    exact hwords j hlt
  · obtain ⟨k, rfl⟩ := Nat.exists_eq_add_of_le (Nat.le_of_not_lt hlt)
    have hk : k < ws.length := by omega
    rw [columnAt, word_storeWords_inside rk (by omega) hk, hws k hk]

theorem columnOf_first {rk : List ULong} {i : Nat} (h : Expanded nk key rk (nk * i + nk))
    (hnk : 0 < nk) (hi : i < 10) :
    columnOf (firstWord fixedTables i (word rk (nk * i)) (word rk (nk * i + (nk - 1)))) =
      Rijndael.expandedWord nk key (nk * i + nk) := by
  rw [columnOf_firstWord hi, expandedWord_first hnk]
  show addWord (columnAt rk _) (addWord (subWord (rotWord (columnAt rk _))) _) = _
  rw [h.2 _ (by omega), h.2 _ (by omega)]

theorem columnOf_next {rk : List ULong} {i k : Nat} {w : ULong}
    (h : Expanded nk key rk (nk * i + nk)) (hk : 0 < k) (hlt : k < nk) (hsub : ¬ (nk > 6 ∧ k = 4))
    (hw : columnOf w = Rijndael.expandedWord nk key (nk * i + nk + (k - 1))) :
    columnOf (word rk (nk * i + k) ^^^ w) = Rijndael.expandedWord nk key (nk * i + nk + k) := by
  rw [columnOf_xor, expandedWord_next hk hlt hsub, hw, ← h.2 (nk * i + k) (by omega)]
  rfl

theorem pass10_expanded {rk : List ULong} {i : Nat} (hi : i < 10)
    (h : Expanded 4 key rk (4 * i + 4)) :
    Expanded 4 key (pass10 fixedTables rk i) (4 * (i + 1) + 4) := by
  have h4 := columnOf_first h (by decide) hi
  have h5 := columnOf_next h (k := 1) (by decide) (by decide) (by decide) h4
  have h6 := columnOf_next h (k := 2) (by decide) (by decide) (by decide) h5
  have h7 := columnOf_next h (k := 3) (by decide) (by decide) (by decide) h6
  refine h.store [_, _, _, _] (by simp only [List.length_cons, List.length_nil]; omega) ?_
  intro k hk
  match k, hk with
  | 0, _ => exact h4
  | 1, _ => exact h5
  | 2, _ => exact h6
  | 3, _ => exact h7

theorem pass12_expanded {rk : List ULong} {i : Nat} (hi : i < 8)
    (h : Expanded 6 key rk (6 * i + 6)) :
    Expanded 6 key (pass12 fixedTables rk i) (6 * (i + 1) + 6) := by
  have h6 := columnOf_first h (by decide) (by omega)
  have h7 := columnOf_next h (k := 1) (by decide) (by decide) (by decide) h6
  have h8 := columnOf_next h (k := 2) (by decide) (by decide) (by decide) h7
  have h9 := columnOf_next h (k := 3) (by decide) (by decide) (by decide) h8
  have h10 := columnOf_next h (k := 4) (by decide) (by decide) (by decide) h9
  have h11 := columnOf_next h (k := 5) (by decide) (by decide) (by decide) h10
  refine h.store [_, _, _, _, _, _]
    (by simp only [List.length_cons, List.length_nil]; omega) ?_
  intro k hk
  match k, hk with
  | 0, _ => exact h6
  | 1, _ => exact h7
  | 2, _ => exact h8
  | 3, _ => exact h9
  | 4, _ => exact h10
  | 5, _ => exact h11

theorem pass14_expanded {rk : List ULong} {i : Nat} (hi : i < 7)
    (h : Expanded 8 key rk (8 * i + 8)) :
    Expanded 8 key (pass14 fixedTables rk i) (8 * (i + 1) + 8) := by
  have h8 := columnOf_first h (by decide) (by omega)
  have h9 := columnOf_next h (k := 1) (by decide) (by decide) (by decide) h8
  have h10 := columnOf_next h (k := 2) (by decide) (by decide) (by decide) h9
  have h11 := columnOf_next h (k := 3) (by decide) (by decide) (by decide) h10
  have hmiddle (w : ULong) (hw : columnOf w = Rijndael.expandedWord 8 key (8 * i + 8 + 3)) :
      columnOf (word rk (8 * i + 4) ^^^ (entry fixedTables.fsb w 24 <<< 24)
        ^^^ (entry fixedTables.fsb w 16 <<< 16) ^^^ (entry fixedTables.fsb w 8 <<< 8)
        ^^^ entry fixedTables.fsb w 0) = Rijndael.expandedWord 8 key (8 * i + 8 + 4) := by
    rw [expandedWord_sub (by decide), ← hw, ← h.2 _ (by omega)]
    simp only [entry_fsb, columnOf_xor_bytes, BitVec.ushiftRight_zero]
    exact addWord_comm _ _
  have h12 := hmiddle _ h11
  have h13 := columnOf_next h (k := 5) (by decide) (by decide) (by decide) h12
  have h14 := columnOf_next h (k := 6) (by decide) (by decide) (by decide) h13
  have h15 := columnOf_next h (k := 7) (by decide) (by decide) (by decide) h14
  refine h.store [_, _, _, _, _, _, _, _]
    (by simp only [List.length_cons, List.length_nil]; omega) ?_
  intro k hk
  match k, hk with
  | 0, _ => exact h8
  | 1, _ => exact h9
  | 2, _ => exact h10
  | 3, _ => exact h11
  | 4, _ => exact h12
  | 5, _ => exact h13
  | 6, _ => exact h14
  | 7, _ => exact h15

theorem foldl_expanded {pass : List ULong → Nat → List ULong} {n : Nat}
    (hpass : ∀ rk i, i < n → Expanded nk key rk (nk * i + nk) →
      Expanded nk key (pass rk i) (nk * (i + 1) + nk)) {rk : List ULong}
    (h : Expanded nk key rk nk) :
    Expanded nk key ((List.range n).foldl pass rk) (nk * n + nk) := by
  suffices hle : ∀ m, m ≤ n → Expanded nk key ((List.range m).foldl pass rk) (nk * m + nk) from
    hle n (Nat.le_refl n)
  intro m
  induction m with
  | zero =>
    intro _
    rwa [Nat.mul_zero, Nat.zero_add]
  | succ m ih =>
    intro hm
    rw [List.range_succ, List.foldl_append]
    exact hpass _ m hm (ih (by omega))

end

/-- The words of the key are the first of the expansion. -/
theorem keyWords_expanded (key : Nat → UInt8) {keysize : UInt32} {nk : Nat}
    (hnk : (keysize >>> 5).toNat = nk) (hle : nk ≤ 64) :
    Expanded nk (byteColumn key) (keyWords key keysize) nk := by
  refine ⟨?_, fun j hj => ?_⟩
  · rw [keyWords, length_storeWords, List.length_replicate]
    simpa [hnk] using hle
  · have hlen : j < ((List.range nk).map fun i => getUint32 key (i * 4)).length := by simpa using hj
    have hword := word_storeWords_inside (List.replicate 64 0) (Nat.zero_le _) hlen
    rw [Nat.zero_add] at hword
    rw [columnAt, keyWords, hnk, hword, List.getElem_map, List.getElem_range, columnOf_getUint32,
      Rijndael.expandedWord, if_pos (Or.inl hj), Nat.mul_comm j 4]
    rfl

theorem Expanded.of_le {nk : Nat} {key : Nat → Rijndael.Word} {rk : List ULong} {m n : Nat}
    (h : Expanded nk key rk n) (hle : m ≤ n) : Expanded nk key rk m :=
  ⟨h.1, fun j hj => h.2 j (Nat.lt_of_lt_of_le hj hle)⟩

/-- For the key sizes of the cipher the schedule is its key expansion. -/
theorem erkOf_expanded (key : Nat → UInt8) {keysize : UInt32}
    (hsize : keysize = 128 ∨ keysize = 192 ∨ keysize = 256) :
    Expanded (keysize >>> 5).toNat (byteColumn key) (erkOf fixedTables key keysize)
      (4 * (nrOf keysize + 1)) := by
  rcases hsize with rfl | rfl | rfl
  · have hnk : ((128 : UInt32) >>> 5).toNat = 4 := rfl
    have hnr : nrOf 128 = 10 := rfl
    have h := foldl_expanded (fun _ _ => pass10_expanded) (keyWords_expanded key hnk (by decide))
    rw [hnk, hnr, erkOf]
    exact h.of_le (by decide)
  · have hnk : ((192 : UInt32) >>> 5).toNat = 6 := rfl
    have hnr : nrOf 192 = 12 := rfl
    have h := foldl_expanded (fun _ _ => pass12_expanded) (keyWords_expanded key hnk (by decide))
    rw [hnk, hnr, erkOf]
    exact h.of_le (by decide)
  · have hnk : ((256 : UInt32) >>> 5).toNat = 8 := rfl
    have hnr : nrOf 256 = 14 := rfl
    have h := foldl_expanded (fun _ _ => pass14_expanded) (keyWords_expanded key hnk (by decide))
    rw [hnk, hnr, erkOf]
    exact h.of_le (by decide)

/-- Of blocks of four words in a row, word `4 * r + k` is word `k` of block `r`. -/
theorem word_flatten {bs : List (List ULong)} (h4 : ∀ b ∈ bs, b.length = 4) {r k : Nat}
    (hr : r < bs.length) (hk : k < 4) : word bs.flatten (4 * r + k) = word bs[r] k := by
  induction bs generalizing r with
  | nil => exact absurd hr (Nat.not_lt_zero r)
  | cons b bs ih =>
    have hb : b.length = 4 := h4 b List.mem_cons_self
    cases r with
    | zero =>
      rw [word, List.flatten_cons, List.getD_append _ _ _ _ (by omega), Nat.mul_zero, Nat.zero_add]
      rfl
    | succ r =>
      have hrest := ih (fun c hc => h4 c (List.mem_cons_of_mem b hc)) (r := r)
        (Nat.lt_of_succ_lt_succ hr)
      rw [word, List.flatten_cons, List.getD_append_right _ _ _ _ (by omega), hb,
        show 4 * (r + 1) + k - 4 = 4 * r + k by omega]
      exact hrest

/-- The blocks of four words that the decryption keys are. -/
def drkBlocks (kt : Quad (List ULong)) (rk : List ULong) (nr : Nat) : List (List ULong) :=
  roundWords rk nr ::
    ((List.range' 1 (nr - 1)).map fun i => (roundWords rk (nr - i)).map (ktWord kt))
    ++ [roundWords rk 0]

theorem drkWords_eq_flatten (kt : Quad (List ULong)) (rk : List ULong) (nr : Nat) :
    drkWords kt rk nr = (drkBlocks kt rk nr).flatten := by
  simp [drkWords, drkBlocks, List.flatMap_def]

theorem length_drkBlocks (kt : Quad (List ULong)) (rk : List ULong) {nr : Nat} (hnr : 0 < nr) :
    (drkBlocks kt rk nr).length = nr + 1 := by
  simp only [drkBlocks, List.cons_append, List.length_cons, List.length_append, List.length_map,
    List.length_range', List.length_nil]
  omega

theorem drkBlocks_four (kt : Quad (List ULong)) (rk : List ULong) (nr : Nat) :
    ∀ b ∈ drkBlocks kt rk nr, b.length = 4 := by
  intro b hb
  simp only [drkBlocks, List.cons_append, List.mem_cons, List.mem_append, List.mem_map,
    List.not_mem_nil, or_false] at hb
  rcases hb with rfl | ⟨i, -, rfl⟩ | rfl <;> rfl

theorem map_rotr8_kt {t0 t1 : List ULong} (h : t0.map rotr8 = t1) (fsb : List ULong) :
    (fsb.map fun s => t0.getD s.toNat 0).map rotr8 = fsb.map fun s => t1.getD s.toNat 0 := by
  subst h
  rw [List.map_map]
  apply List.map_congr_left
  intro s _
  exact (List.getD_map t0 0 rotr8).symm

/-- Behind the S-box the reverse table finds the byte itself. -/
theorem columnOf_kt0 (b : UInt8) :
    columnOf ((ktTables fixedTables).a.getD b.toNat 0) = rtColumn b := by
  have hlen : b.toNat < fixedTables.fsb.length := Nat.lt_of_lt_of_eq b.toNat_lt length_fixedSb.1.symm
  have hfsb : fixedTables.fsb[b.toNat] = ulong (Rijndael.sbox b) := by
    rw [← List.getD_eq_getElem _ 0 hlen, fsb_eq]
  have htoNat : (ulong (Rijndael.sbox b)).toNat = (Rijndael.sbox b).toNat :=
    BitVec.toNat_setWidth_of_le (by decide)
  show columnOf ((fixedTables.fsb.map fun s => fixedTables.rt0.getD s.toNat 0).getD b.toNat 0) = _
  rw [List.getD_eq_getElem _ _ (by rwa [List.length_map]), List.getElem_map, hfsb, htoNat,
    columnOf_rt0, Rijndael.invSbox_sbox]

/-- What is stored for a word of an inner round is the column mixed back. -/
theorem columnOf_ktWord (w : ULong) :
    columnOf (ktWord (ktTables fixedTables) w) = invMixColumn (columnOf w) := by
  obtain ⟨h1, h2, h3⟩ := map_rotr8_rt
  exact (columnOf_entries (map_rotr8_kt h1 _) (map_rotr8_kt h2 _) (map_rotr8_kt h3 _) columnOf_kt0
    w w w w).trans (invMixColumn_eq_add _ _ _ _).symm

theorem length_flatten_four {bs : List (List ULong)} (h4 : ∀ b ∈ bs, b.length = 4) :
    bs.flatten.length = 4 * bs.length := by
  induction bs with
  | nil => rfl
  | cons b bs ih =>
    rw [List.flatten_cons, List.length_append, h4 b List.mem_cons_self,
      ih fun c hc => h4 c (List.mem_cons_of_mem b hc), List.length_cons]
    omega

/-- The words of round `r` among the decryption keys are block `r`. -/
theorem roundKey_drk (t : AesTables) (key : Nat → UInt8) {keysize : UInt32} {r : Nat}
    {b : List ULong}
    (hb : (drkBlocks (ktTables t) (erkOf t key keysize) (nrOf keysize))[r]? = some b) :
    roundKey (columnAt (contextOf t (ktTables t) key keysize).drk) r =
      ⟨columnAt b 0, columnAt b 1, columnAt b 2, columnAt b 3⟩ := by
  have hfour := drkBlocks_four (ktTables t) (erkOf t key keysize) (nrOf keysize)
  have hpos : 0 < nrOf keysize := by
    unfold nrOf
    split <;> [decide; split <;> decide]
  have hblocks := length_drkBlocks (ktTables t) (erkOf t key keysize) hpos
  obtain ⟨hr, rfl⟩ := List.getElem?_eq_some_iff.mp hb
  have hword (k : Nat) (hk : k < 4) :
      columnAt (contextOf t (ktTables t) key keysize).drk (4 * r + k) =
        columnAt (drkBlocks (ktTables t) (erkOf t key keysize) (nrOf keysize))[r] k := by
    have hin : 4 * r + k < (drkWords (ktTables t) (erkOf t key keysize) (nrOf keysize)).length := by
      rw [drkWords_eq_flatten, length_flatten_four hfour]
      omega
    have hstored := word_storeWords_inside (List.replicate 64 0) (Nat.zero_le _) hin
    rw [Nat.zero_add] at hstored
    show columnOf (word (storeWords _ 0 _) _) = columnOf (word _ k)
    rw [hstored, ← word_flatten hfour hr hk, ← List.getD_eq_getElem _ 0 hin, drkWords_eq_flatten]
    rfl
  rw [roundKey, ← hword 0 (by decide), ← hword 1 (by decide), ← hword 2 (by decide),
    ← hword 3 (by decide)]
  rfl

theorem nrOf_cases (keysize : UInt32) :
    nrOf keysize = 10 ∨ nrOf keysize = 12 ∨ nrOf keysize = 14 := by
  unfold nrOf
  split
  · exact Or.inr (Or.inr rfl)
  · split
    · exact Or.inr (Or.inl rfl)
    · exact Or.inl rfl

section

variable (key : Nat → UInt8) (keysize : UInt32)

theorem roundKey_drk_first :
    roundKey (columnAt (contextOf fixedTables (ktTables fixedTables) key keysize).drk) 0 =
      roundKey (columnAt (erkOf fixedTables key keysize)) (nrOf keysize) := by
  refine roundKey_drk fixedTables key
    (b := roundWords (erkOf fixedTables key keysize) (nrOf keysize)) ?_
  rw [drkBlocks]
  exact List.getElem?_cons_zero

theorem roundKey_drk_last :
    roundKey (columnAt (contextOf fixedTables (ktTables fixedTables) key keysize).drk)
        (nrOf keysize) =
      roundKey (columnAt (erkOf fixedTables key keysize)) 0 := by
  have hlen : nrOf keysize =
      (roundWords (erkOf fixedTables key keysize) (nrOf keysize) ::
        ((List.range' 1 (nrOf keysize - 1)).map fun i =>
          (roundWords (erkOf fixedTables key keysize) (nrOf keysize - i)).map
            (ktWord (ktTables fixedTables)))).length := by
    have hnr := nrOf_cases keysize
    rw [List.length_cons, List.length_map, List.length_range']
    omega
  refine roundKey_drk fixedTables key (b := roundWords (erkOf fixedTables key keysize) 0) ?_
  rw [drkBlocks, List.getElem?_append_right (Nat.le_of_eq hlen.symm), ← hlen, Nat.sub_self]
  rfl

theorem roundKey_drk_inner {i : Nat} (hi : i < nrOf keysize - 1) :
    roundKey (columnAt (contextOf fixedTables (ktTables fixedTables) key keysize).drk) (1 + i) =
      invMixColumns
        (roundKey (columnAt (erkOf fixedTables key keysize)) (nrOf keysize - (1 + i))) := by
  rw [roundKey_drk fixedTables key (b := (roundWords (erkOf fixedTables key keysize)
    (nrOf keysize - (1 + i))).map (ktWord (ktTables fixedTables)))]
  · have hcolumn (k : Nat) (hk : k < 4) (rk : List ULong) (r : Nat) :
        columnAt ((roundWords rk r).map (ktWord (ktTables fixedTables))) k =
          invMixColumn (columnAt rk (4 * r + k)) := by
      match k, hk with
      | 0, _ => exact columnOf_ktWord _
      | 1, _ => exact columnOf_ktWord _
      | 2, _ => exact columnOf_ktWord _
      | 3, _ => exact columnOf_ktWord _
    rw [hcolumn 0 (by decide), hcolumn 1 (by decide), hcolumn 2 (by decide), hcolumn 3 (by decide)]
    rfl
  · rw [drkBlocks, List.cons_append, Nat.add_comm 1 i, List.getElem?_cons_succ,
      List.getElem?_append_left (by simpa using hi), List.getElem?_map,
      List.getElem?_range' hi, Nat.add_comm i 1, Option.map_some]
    rw [Nat.one_mul]

/-- The keys of the inner rounds are the mixed ones in reverse. -/
theorem roundKeys_drk_inner :
    (List.range' 1 (nrOf keysize - 1)).map
        (roundKey (columnAt (contextOf fixedTables (ktTables fixedTables) key keysize).drk)) =
      (Rijndael.innerKeys (columnAt (erkOf fixedTables key keysize))
        (nrOf keysize)).reverse.map invMixColumns := by
  apply List.ext_getElem
  · simp [Rijndael.innerKeys]
  · intro i hi _
    rw [List.length_map, List.length_range'] at hi
    rw [List.getElem_map, List.getElem_range', Nat.one_mul, roundKey_drk_inner key keysize hi,
      List.getElem_map, List.getElem_reverse]
    simp only [Rijndael.innerKeys, List.getElem_map, List.getElem_range', List.length_map,
      List.length_range']
    congr 2
    omega

end

/-- The state that the sixteen bytes of a block are. -/
def stateOf (b : Nat → UInt8) : Rijndael.State :=
  ⟨byteColumn b 0, byteColumn b 1, byteColumn b 2, byteColumn b 3⟩

def stateBytes (s : Rijndael.State) : Vector UInt8 16 :=
  #v[s.a.a, s.a.b, s.a.c, s.a.d, s.b.a, s.b.b, s.b.c, s.b.d,
    s.c.a, s.c.b, s.c.c, s.c.d, s.d.a, s.d.b, s.d.c, s.d.d]

theorem putWords_eq (x : Quad ULong) : putWords x = stateBytes (columnsOf x) := rfl

theorem columnsOf_firstWords (rk : List ULong) (input : Nat → UInt8) :
    columnsOf (firstWords rk input) = addRoundKey (stateOf input) (roundKey (columnAt rk) 0) := by
  simp only [columnsOf, Quad.map, firstWords, columnOf_xor, columnOf_getUint32]
  rfl

theorem columnsOf_foldl_fround (rk : List ULong) (rs : List Nat) (y : Quad ULong) :
    columnsOf (rs.foldl (fun y r => fround fixedTables rk r y) y) =
      SubstitutionNetwork.rounds addRoundKey substitution mixColumns
        (rs.map (roundKey (columnAt rk))) (columnsOf y) := by
  induction rs generalizing y with
  | nil => rfl
  | cons r rs ih => rw [List.foldl_cons, ih, columnsOf_fround, List.map_cons,
      SubstitutionNetwork.rounds]

theorem columnsOf_foldl_rround (rk : List ULong) (rs : List Nat) (y : Quad ULong) :
    columnsOf (rs.foldl (fun y r => rround fixedTables rk r y) y) =
      SubstitutionNetwork.rounds addRoundKey invSubstitution invMixColumns
        (rs.map (roundKey (columnAt rk))) (columnsOf y) := by
  induction rs generalizing y with
  | nil => rfl
  | cons r rs ih => rw [List.foldl_cons, ih, columnsOf_rround, List.map_cons,
      SubstitutionNetwork.rounds]

theorem tableRounds_eq {nr : Nat} (hnr : nr = 10 ∨ nr = 12 ∨ nr = 14) :
    tableRounds nr = nr - 1 := by
  rcases hnr with rfl | rfl | rfl <;> rfl

theorem aesEncrypt_eq_cipher {ctx : AesContext} (hnr : ctx.nr = 10 ∨ ctx.nr = 12 ∨ ctx.nr = 14)
    (input : Nat → UInt8) : aesEncrypt fixedTables ctx input =
      stateBytes (Rijndael.cipher ctx.nr (columnAt ctx.erk) (stateOf input)) := by
  have hlast : ctx.nr - 1 + 1 = ctx.nr := by omega
  rw [aesEncrypt, putWords_eq]
  simp only [tableRounds_eq hnr, hlast, columnsOf_flast, columnsOf_foldl_fround,
    columnsOf_firstWords]
  rfl

theorem aesDecrypt_eq_crypt {ctx : AesContext} (hnr : ctx.nr = 10 ∨ ctx.nr = 12 ∨ ctx.nr = 14)
    (input : Nat → UInt8) : aesDecrypt fixedTables ctx input =
      stateBytes (SubstitutionNetwork.crypt addRoundKey invSubstitution invMixColumns
        (roundKey (columnAt ctx.drk) 0)
        ((List.range' 1 (ctx.nr - 1)).map (roundKey (columnAt ctx.drk)))
        (roundKey (columnAt ctx.drk) ctx.nr) (stateOf input)) := by
  have hlast : ctx.nr - 1 + 1 = ctx.nr := by omega
  rw [aesDecrypt, putWords_eq]
  simp only [tableRounds_eq hnr, hlast, columnsOf_rlast, columnsOf_foldl_rround,
    columnsOf_firstWords]
  rfl

/-- Decryption with the stored keys is the equivalent inverse of the cipher with the
encryption keys. -/
theorem aesDecrypt_eq_eqInvCipher (key : Nat → UInt8) (keysize : UInt32) (input : Nat → UInt8) :
    aesDecrypt fixedTables (contextOf fixedTables (ktTables fixedTables) key keysize) input =
      stateBytes (Rijndael.eqInvCipher (nrOf keysize)
        (columnAt (erkOf fixedTables key keysize)) (stateOf input)) := by
  rw [aesDecrypt_eq_crypt (nrOf_cases keysize), Rijndael.eqInvCipher,
    ← roundKey_drk_first key keysize, ← roundKeys_drk_inner key keysize,
    ← roundKey_drk_last key keysize]
  rfl

theorem stateOf_stateBytes (s : Rijndael.State) :
    stateOf (fun k => (stateBytes s).toList.getD k 0) = s := rfl

theorem stateBytes_stateOf (b : Nat → UInt8) {k : Nat} (hk : k < 16) :
    (stateBytes (stateOf b))[k] = b k := by
  interval_cases k <;> rfl

end BackupSoftware.Encryption
