import Mathlib.Data.List.GetD
import BackupSoftware.Library.Feistel

/-!
# The block cipher DES

The cipher as it is specified, on bits: permutations given by tables, sixteen rounds with
expansion, eight substitution boxes and a permutation, and a key schedule of two choices
and rotations. The bits of a block count from 1, the highest bit first.
-/

namespace BackupSoftware.Library.Des

variable {w : Nat}

/-- The `n` bits of a function, the highest first. -/
def ofBits : (n : Nat) → (Nat → Bool) → BitVec n
  | 0, _ => 0#0
  | n + 1, f => BitVec.concat (ofBits n f) (f n)

theorem getLsbD_ofBits {n i : Nat} (hi : i < n) (f : Nat → Bool) :
    (ofBits n f).getLsbD i = f (n - 1 - i) := by
  induction n generalizing i with
  | zero => exact absurd hi (Nat.not_lt_zero i)
  | succ n ih =>
    rw [ofBits, BitVec.getLsbD_concat]
    cases i with
    | zero => rw [if_pos rfl, Nat.add_sub_cancel, Nat.sub_zero]
    | succ i =>
      rw [if_neg (Nat.succ_ne_zero i), Nat.add_sub_cancel, ih (by omega)]
      congr 1
      omega

/-- The bits that the table names, in its order. -/
def permute (n : Nat) (table : List Nat) (v : BitVec w) : BitVec n :=
  ofBits n fun i => v.getMsbD (table.getD i 0 - 1)

theorem getLsbD_permute {n i : Nat} (hi : i < n) (table : List Nat) (v : BitVec w) :
    (permute n table v).getLsbD i = v.getMsbD (table.getD (n - 1 - i) 0 - 1) := getLsbD_ofBits hi _

theorem getMsbD_permute {n i : Nat} (hi : i < n) (table : List Nat) (v : BitVec w) :
    (permute n table v).getMsbD i = v.getMsbD (table.getD i 0 - 1) := by
  rw [BitVec.getMsbD, decide_eq_true hi, Bool.true_and, getLsbD_permute (by omega)]
  congr 2
  rw [show n - 1 - (n - 1 - i) = i by omega]

theorem getElem_permute {n i : Nat} (hi : i < n) (table : List Nat) (v : BitVec w) :
    (permute n table v)[i] = v.getMsbD (table.getD (n - 1 - i) 0 - 1) :=
  (BitVec.getLsbD_eq_getElem hi).symm.trans (getLsbD_permute hi table v)

theorem permute_xor (n : Nat) (table : List Nat) (v v' : BitVec w) :
    permute n table (v ^^^ v') = permute n table v ^^^ permute n table v' := by
  apply BitVec.eq_of_getLsbD_eq
  intro i hi
  rw [BitVec.getLsbD_xor, getLsbD_permute hi, getLsbD_permute hi, getLsbD_permute hi,
    BitVec.getMsbD_xor]

/-- A table undoes another if it finds every bit where the other has put it. -/
theorem permute_permute {table table' : List Nat}
    (h : ∀ i < w, table.getD i 0 - 1 < w ∧ table'.getD (table.getD i 0 - 1) 0 = i + 1)
    (v : BitVec w) : permute w table (permute w table' v) = v := by
  apply BitVec.eq_of_getMsbD_eq
  intro i hi
  rw [getMsbD_permute hi, getMsbD_permute (h i hi).1, (h i hi).2, Nat.add_sub_cancel]

/-- Two maps that keep `xor` are the same if they agree on the words of a single bit. -/
theorem eq_of_units {n : Nat} (g g' : BitVec w → BitVec n)
    (hg : ∀ a b, g (a ^^^ b) = g a ^^^ g b) (hg' : ∀ a b, g' (a ^^^ b) = g' a ^^^ g' b)
    (h : ∀ i < w, g (BitVec.twoPow w i) = g' (BitVec.twoPow w i)) (v : BitVec w) :
    g v = g' v := by
  have hzero : ∀ {u : BitVec w → BitVec n}, (∀ a b, u (a ^^^ b) = u a ^^^ u b) → u 0 = 0 := by
    intro u hu
    have hself := hu 0 0
    rwa [BitVec.xor_self, BitVec.xor_self] at hself
  have hlow : ∀ k ≤ w, g ((v.setWidth k).setWidth w) = g' ((v.setWidth k).setWidth w) := by
    intro k
    induction k with
    | zero =>
      intro _
      have hempty : (v.setWidth 0).setWidth w = 0 := by
        apply BitVec.eq_of_getLsbD_eq
        intro i _
        simp
      rw [hempty, hzero hg, hzero hg']
    | succ k ih =>
      intro hk
      have hbit : (v.setWidth (k + 1)).setWidth w = (v.setWidth k).setWidth w ^^^
          (if v.getLsbD k then BitVec.twoPow w k else 0) := by
        apply BitVec.eq_of_getLsbD_eq
        intro i hi
        rw [BitVec.getLsbD_xor]
        simp only [BitVec.getLsbD_setWidth, hi, decide_true, Bool.true_and]
        by_cases hik : i = k
        · subst hik
          cases hv : v.getLsbD i <;> simp [hi]
        · have hne : k ≠ i := fun h => hik h.symm
          have hlt : i < k + 1 ↔ i < k := by omega
          split <;> simp [hne, hlt]
      rw [hbit, hg, hg', ih (by omega)]
      split
      · rw [h k (by omega)]
      · rw [hzero hg, hzero hg']
  have hfull := hlow w (Nat.le_refl w)
  rwa [BitVec.setWidth_eq, BitVec.setWidth_eq] at hfull

def left (b : BitVec 64) : BitVec 32 := b.extractLsb' 32 32
def right (b : BitVec 64) : BitVec 32 := b.extractLsb' 0 32

theorem left_xor (b b' : BitVec 64) : left (b ^^^ b') = left b ^^^ left b' :=
  BitVec.extractLsb'_xor

theorem right_xor (b b' : BitVec 64) : right (b ^^^ b') = right b ^^^ right b' :=
  BitVec.extractLsb'_xor

theorem left_append_right (b : BitVec 64) : left b ++ right b = b := by
  apply BitVec.eq_of_getLsbD_eq
  intro i hi
  rw [BitVec.getLsbD_append, left, right, BitVec.getLsbD_extractLsb', BitVec.getLsbD_extractLsb']
  by_cases hlt : i < 32
  · simp [hlt]
  · have hsub : i - 32 < 32 := by omega
    simp [hlt, hsub, Nat.add_sub_cancel' (Nat.le_of_not_lt hlt)]

theorem left_append (x y : BitVec 32) : left (x ++ y) = x := by
  apply BitVec.eq_of_getLsbD_eq
  intro i hi
  rw [left, BitVec.getLsbD_extractLsb', decide_eq_true hi, Bool.true_and, BitVec.getLsbD_append,
    if_neg (by omega), Nat.add_sub_cancel_left]

theorem right_append (x y : BitVec 32) : right (x ++ y) = y := by
  apply BitVec.eq_of_getLsbD_eq
  intro i hi
  rw [right, BitVec.getLsbD_extractLsb', decide_eq_true hi, Bool.true_and, BitVec.getLsbD_append,
    Nat.zero_add, if_pos hi]

def ip : List Nat :=
  [58, 50, 42, 34, 26, 18, 10, 2, 60, 52, 44, 36, 28, 20, 12, 4,
    62, 54, 46, 38, 30, 22, 14, 6, 64, 56, 48, 40, 32, 24, 16, 8,
    57, 49, 41, 33, 25, 17, 9, 1, 59, 51, 43, 35, 27, 19, 11, 3,
    61, 53, 45, 37, 29, 21, 13, 5, 63, 55, 47, 39, 31, 23, 15, 7]

/-- The inverse of `ip`. -/
def fp : List Nat :=
  [40, 8, 48, 16, 56, 24, 64, 32, 39, 7, 47, 15, 55, 23, 63, 31,
    38, 6, 46, 14, 54, 22, 62, 30, 37, 5, 45, 13, 53, 21, 61, 29,
    36, 4, 44, 12, 52, 20, 60, 28, 35, 3, 43, 11, 51, 19, 59, 27,
    34, 2, 42, 10, 50, 18, 58, 26, 33, 1, 41, 9, 49, 17, 57, 25]

/-- The expansion of a half to 48 bits. -/
def expansion : List Nat :=
  [32, 1, 2, 3, 4, 5, 4, 5, 6, 7, 8, 9, 8, 9, 10, 11, 12, 13, 12, 13, 14, 15, 16, 17,
    16, 17, 18, 19, 20, 21, 20, 21, 22, 23, 24, 25, 24, 25, 26, 27, 28, 29, 28, 29, 30, 31, 32, 1]

/-- The permutation at the end of a round. -/
def permutation : List Nat :=
  [16, 7, 20, 21, 29, 12, 28, 17, 1, 15, 23, 26, 5, 18, 31, 10,
    2, 8, 24, 14, 32, 27, 3, 9, 19, 13, 30, 6, 22, 11, 4, 25]

/-- The substitution boxes, row after row. -/
def boxes : List (List Nat) :=
  [[14, 4, 13, 1, 2, 15, 11, 8, 3, 10, 6, 12, 5, 9, 0, 7,
    0, 15, 7, 4, 14, 2, 13, 1, 10, 6, 12, 11, 9, 5, 3, 8,
    4, 1, 14, 8, 13, 6, 2, 11, 15, 12, 9, 7, 3, 10, 5, 0,
    15, 12, 8, 2, 4, 9, 1, 7, 5, 11, 3, 14, 10, 0, 6, 13],
   [15, 1, 8, 14, 6, 11, 3, 4, 9, 7, 2, 13, 12, 0, 5, 10,
    3, 13, 4, 7, 15, 2, 8, 14, 12, 0, 1, 10, 6, 9, 11, 5,
    0, 14, 7, 11, 10, 4, 13, 1, 5, 8, 12, 6, 9, 3, 2, 15,
    13, 8, 10, 1, 3, 15, 4, 2, 11, 6, 7, 12, 0, 5, 14, 9],
   [10, 0, 9, 14, 6, 3, 15, 5, 1, 13, 12, 7, 11, 4, 2, 8,
    13, 7, 0, 9, 3, 4, 6, 10, 2, 8, 5, 14, 12, 11, 15, 1,
    13, 6, 4, 9, 8, 15, 3, 0, 11, 1, 2, 12, 5, 10, 14, 7,
    1, 10, 13, 0, 6, 9, 8, 7, 4, 15, 14, 3, 11, 5, 2, 12],
   [7, 13, 14, 3, 0, 6, 9, 10, 1, 2, 8, 5, 11, 12, 4, 15,
    13, 8, 11, 5, 6, 15, 0, 3, 4, 7, 2, 12, 1, 10, 14, 9,
    10, 6, 9, 0, 12, 11, 7, 13, 15, 1, 3, 14, 5, 2, 8, 4,
    3, 15, 0, 6, 10, 1, 13, 8, 9, 4, 5, 11, 12, 7, 2, 14],
   [2, 12, 4, 1, 7, 10, 11, 6, 8, 5, 3, 15, 13, 0, 14, 9,
    14, 11, 2, 12, 4, 7, 13, 1, 5, 0, 15, 10, 3, 9, 8, 6,
    4, 2, 1, 11, 10, 13, 7, 8, 15, 9, 12, 5, 6, 3, 0, 14,
    11, 8, 12, 7, 1, 14, 2, 13, 6, 15, 0, 9, 10, 4, 5, 3],
   [12, 1, 10, 15, 9, 2, 6, 8, 0, 13, 3, 4, 14, 7, 5, 11,
    10, 15, 4, 2, 7, 12, 9, 5, 6, 1, 13, 14, 0, 11, 3, 8,
    9, 14, 15, 5, 2, 8, 12, 3, 7, 0, 4, 10, 1, 13, 11, 6,
    4, 3, 2, 12, 9, 5, 15, 10, 11, 14, 1, 7, 6, 0, 8, 13],
   [4, 11, 2, 14, 15, 0, 8, 13, 3, 12, 9, 7, 5, 10, 6, 1,
    13, 0, 11, 7, 4, 9, 1, 10, 14, 3, 5, 12, 2, 15, 8, 6,
    1, 4, 11, 13, 12, 3, 7, 14, 10, 15, 6, 8, 0, 5, 9, 2,
    6, 11, 13, 8, 1, 4, 10, 7, 9, 5, 0, 15, 14, 2, 3, 12],
   [13, 2, 8, 4, 6, 15, 11, 1, 10, 9, 3, 14, 5, 0, 12, 7,
    1, 15, 13, 8, 10, 3, 7, 4, 12, 5, 6, 11, 0, 14, 9, 2,
    7, 11, 4, 1, 9, 12, 14, 2, 0, 6, 10, 13, 15, 3, 5, 8,
    2, 1, 14, 7, 4, 10, 8, 13, 15, 12, 9, 0, 3, 5, 6, 11]]

/-- Box `k` of 0 to 7: the outer bits give the row, the inner ones the column. -/
def box (k : Nat) (b : BitVec 6) : BitVec 4 :=
  let row := (b.extractLsb' 5 1 ++ b.extractLsb' 0 1 : BitVec 2)
  let column := b.extractLsb' 1 4
  BitVec.ofNat 4 ((boxes.getD k []).getD (row ++ column : BitVec 6).toNat 0)

/-- Six bits for box `k`. -/
def group (k : Nat) (e : BitVec 48) : BitVec 6 := e.extractLsb' (42 - 6 * k) 6

def substitute (e : BitVec 48) : BitVec 32 :=
  box 0 (group 0 e) ++ box 1 (group 1 e) ++ box 2 (group 2 e) ++ box 3 (group 3 e)
    ++ box 4 (group 4 e) ++ box 5 (group 5 e) ++ box 6 (group 6 e) ++ box 7 (group 7 e)

/-- The function of a round, on the half that stays and the subkey. -/
def f (k : BitVec 48) (r : BitVec 32) : BitVec 32 :=
  permute 32 permutation (substitute (permute 48 expansion r ^^^ k))

def pc1 : List Nat :=
  [57, 49, 41, 33, 25, 17, 9, 1, 58, 50, 42, 34, 26, 18, 10, 2, 59, 51, 43, 35, 27, 19, 11, 3,
    60, 52, 44, 36, 63, 55, 47, 39, 31, 23, 15, 7, 62, 54, 46, 38, 30, 22, 14, 6, 61, 53, 45, 37,
    29, 21, 13, 5, 28, 20, 12, 4]

def pc2 : List Nat :=
  [14, 17, 11, 24, 1, 5, 3, 28, 15, 6, 21, 10, 23, 19, 12, 4, 26, 8, 16, 7, 27, 20, 13, 2,
    41, 52, 31, 37, 47, 55, 30, 40, 51, 45, 33, 48, 44, 49, 39, 56, 34, 53, 46, 42, 50, 36, 29, 32]

/-- By how many bits the halves of the key are rotated before each round. -/
def rotations : List Nat := [1, 1, 2, 2, 2, 2, 2, 2, 1, 2, 2, 2, 2, 2, 2, 1]

def subkeys : List Nat → BitVec 28 → BitVec 28 → List (BitVec 48)
  | [], _, _ => []
  | n :: ns, c, d =>
      permute 48 pc2 (c.rotateLeft n ++ d.rotateLeft n)
        :: subkeys ns (c.rotateLeft n) (d.rotateLeft n)

def keySchedule (key : BitVec 64) : List (BitVec 48) :=
  let k := permute 56 pc1 key
  subkeys rotations (k.extractLsb' 28 28) (k.extractLsb' 0 28)

/-- The cipher with the subkeys of the rounds. -/
def crypt (ks : List (BitVec 48)) (b : BitVec 64) : BitVec 64 :=
  let b := permute 64 ip b
  let out := Feistel.rounds (· ^^^ ·) f ks (left b, right b)
  permute 64 fp (out.2 ++ out.1)

def encrypt (key b : BitVec 64) : BitVec 64 := crypt (keySchedule key) b

def decrypt (key b : BitVec 64) : BitVec 64 := crypt (keySchedule key).reverse b

theorem length_subkeys (ns : List Nat) (c d : BitVec 28) :
    (subkeys ns c d).length = ns.length := by
  induction ns generalizing c d with
  | nil => rfl
  | cons n ns ih => rw [subkeys, List.length_cons, List.length_cons, ih]

theorem length_keySchedule (key : BitVec 64) : (keySchedule key).length = 16 :=
  length_subkeys _ _ _

theorem permute_ip_fp (b : BitVec 64) : permute 64 ip (permute 64 fp b) = b :=
  permute_permute (by decide) b

theorem permute_fp_ip (b : BitVec 64) : permute 64 fp (permute 64 ip b) = b :=
  permute_permute (by decide) b

/-- Decryption with the subkeys of an encryption. -/
theorem crypt_reverse (ks : List (BitVec 48)) (b : BitVec 64) :
    crypt ks.reverse (crypt ks b) = b := by
  have hcancel : ∀ x y : BitVec 32, x ^^^ y ^^^ y = x := fun x y => by
    rw [BitVec.xor_assoc, BitVec.xor_self, BitVec.xor_zero]
  have hundo : ∀ h : BitVec 32 × BitVec 32, Feistel.rounds (· ^^^ ·) f ks.reverse
      ((Feistel.rounds (· ^^^ ·) f ks h).2, (Feistel.rounds (· ^^^ ·) f ks h).1) = (h.2, h.1) :=
    Feistel.rounds_reverse_swap hcancel f ks
  rw [crypt, crypt, permute_ip_fp, left_append, right_append, hundo, left_append_right,
    permute_fp_ip]

theorem decrypt_encrypt (key b : BitVec 64) : decrypt key (encrypt key b) = b :=
  crypt_reverse _ b

theorem encrypt_decrypt (key b : BitVec 64) : encrypt key (decrypt key b) = b := by
  have h := crypt_reverse (keySchedule key).reverse b
  rwa [List.reverse_reverse] at h

/-- The bits of a key that the cipher reads are those that the first choice names. -/
theorem keySchedule_congr {key key' : BitVec 64}
    (h : ∀ i < 56, key.getMsbD (pc1.getD i 0 - 1) = key'.getMsbD (pc1.getD i 0 - 1)) :
    keySchedule key = keySchedule key' := by
  have hchoice : permute 56 pc1 key = permute 56 pc1 key' := by
    apply BitVec.eq_of_getMsbD_eq
    intro i hi
    rw [getMsbD_permute hi, getMsbD_permute hi, h i hi]
  rw [keySchedule, hchoice, keySchedule]

theorem permute_not {n : Nat} {table : List Nat} (hw : 0 < w) (h : ∀ t ∈ table, t ≤ w)
    (v : BitVec w) : permute n table (~~~v) = ~~~permute n table v := by
  apply BitVec.eq_of_getLsbD_eq
  intro i hi
  have hlt : table.getD (n - 1 - i) 0 - 1 < w := by
    rcases Nat.lt_or_ge (n - 1 - i) table.length with hlen | hlen
    · have hmem := h _ (List.getElem_mem hlen)
      rw [List.getD_eq_getElem _ _ hlen]
      omega
    · rw [List.getD_eq_default _ _ hlen]
      omega
  rw [getLsbD_permute hi, BitVec.getMsbD_not, decide_eq_true hlt, Bool.true_and, BitVec.getLsbD_not,
    decide_eq_true hi, Bool.true_and, getLsbD_permute hi]

theorem left_not (b : BitVec 64) : left (~~~b) = ~~~left b := by
  rw [← BitVec.xor_allOnes, left_xor, ← BitVec.xor_allOnes]
  rfl

theorem right_not (b : BitVec 64) : right (~~~b) = ~~~right b := by
  rw [← BitVec.xor_allOnes, right_xor, ← BitVec.xor_allOnes]
  rfl

theorem not_xor_not (x y : BitVec w) : ~~~x ^^^ ~~~y = x ^^^ y := by
  rw [← BitVec.not_xor_right, ← BitVec.not_xor_left, BitVec.not_not]

theorem rotateLeft_not (c : BitVec w) (n : Nat) : (~~~c).rotateLeft n = ~~~c.rotateLeft n := by
  ext i hi
  rw [BitVec.getElem_rotateLeft, BitVec.getElem_not, BitVec.getElem_rotateLeft]
  split <;> exact BitVec.getElem_not _

/-- The function of a round sees only the difference of the half and the subkey. -/
theorem f_not (k : BitVec 48) (r : BitVec 32) : f (~~~k) (~~~r) = f k r := by
  rw [f, permute_not (by decide) (by decide), not_xor_not, f]

theorem subkeys_not (ns : List Nat) (c d : BitVec 28) :
    subkeys ns (~~~c) (~~~d) = (subkeys ns c d).map (~~~·) := by
  induction ns generalizing c d with
  | nil => rfl
  | cons n ns ih =>
    rw [subkeys, subkeys, List.map_cons, rotateLeft_not, rotateLeft_not, ih, ← BitVec.not_append,
      permute_not (by decide) (by decide)]

theorem keySchedule_not (key : BitVec 64) :
    keySchedule (~~~key) = (keySchedule key).map (~~~·) := by
  have hhigh : ∀ v : BitVec 56, (~~~v).extractLsb' 28 28 = ~~~v.extractLsb' 28 28 := fun v => by
    rw [← BitVec.xor_allOnes, BitVec.extractLsb'_xor, ← BitVec.xor_allOnes]
    rfl
  have hlow : ∀ v : BitVec 56, (~~~v).extractLsb' 0 28 = ~~~v.extractLsb' 0 28 := fun v => by
    rw [← BitVec.xor_allOnes, BitVec.extractLsb'_xor, ← BitVec.xor_allOnes]
    rfl
  rw [keySchedule, permute_not (by decide) (by decide), hhigh, hlow, subkeys_not, keySchedule]

theorem crypt_not (ks : List (BitVec 48)) (b : BitVec 64) :
    crypt (ks.map (~~~·)) (~~~b) = ~~~crypt ks b := by
  have hround : ∀ (k : BitVec 48) (x y : BitVec 32), ~~~x ^^^ f (~~~k) (~~~y) = ~~~(x ^^^ f k y) :=
    fun k x y => by rw [f_not, BitVec.not_xor_left]
  have hrounds := Feistel.rounds_map (~~~·) (~~~·) hround ks
    (left (permute 64 ip b), right (permute 64 ip b))
  rw [Prod.map] at hrounds
  rw [crypt, permute_not (by decide) (by decide), left_not, right_not, hrounds, Prod.map,
    ← BitVec.not_append, permute_not (by decide) (by decide), crypt]

/-- Everything complemented: block, key and result. -/
theorem encrypt_not (key b : BitVec 64) : encrypt (~~~key) (~~~b) = ~~~encrypt key b := by
  rw [encrypt, keySchedule_not, crypt_not, encrypt]

theorem decrypt_not (key b : BitVec 64) : decrypt (~~~key) (~~~b) = ~~~decrypt key b := by
  rw [decrypt, keySchedule_not, ← List.map_reverse, crypt_not, decrypt]

end BackupSoftware.Library.Des
