import BackupSoftware.Library.Memory
import BackupSoftware.Library.Stuffing

/-!
# Escaping of node-server frames

The two loops of `node_server/escape.c`, over separate source and destination
buffers. The expanding loop writes the stuffed interior of its input between a
head and a tail. The contracting loop undoes this on stuffed text; on an escape
byte without a code it leaves a byte of its destination as it was.
-/

namespace BackupSoftware.NodeServer

open BackupSoftware.Library BackupSoftware.Library.Memory

def ndevHd : UInt8 := 0xF1
def ndevTail : UInt8 := 0xF2
def ndevEscF0h : UInt8 := 0xF0
def ndevEsc00h : UInt8 := 0x00
def ndevEsc01h : UInt8 := 0x01
def ndevEsc02h : UInt8 := 0x02

/-- The loop of `__downlink_escape`: the destination and `idxJ` after it. -/
def downlinkLoop (src : Nat → UInt8) (slen : Int) (dest : Nat → UInt8) (idxI idxJ : Nat) :
    (Nat → UInt8) × Nat :=
  if (idxI : Int) ≤ slen - 2 then
    if src idxI = ndevEscF0h then
      let dest' :=
        if src (idxI + 1) = 0x01 then Function.update dest idxJ ndevHd
        else if src (idxI + 1) = 0x02 then Function.update dest idxJ ndevEscF0h
        else if src (idxI + 1) = 0x00 then Function.update dest idxJ ndevTail
        else dest
      downlinkLoop src slen dest' (idxI + 2) (idxJ + 1)
    else downlinkLoop src slen (Function.update dest idxJ (src idxI)) (idxI + 1) (idxJ + 1)
  else (dest, idxJ)
termination_by (slen - idxI).toNat
decreasing_by all_goals omega

/-- The destination after the call, and the return value. -/
def downlinkEscape (dest src : Nat → UInt8) (slen : Int) : (Nat → UInt8) × Nat :=
  let (dest, idxJ) := downlinkLoop src slen dest 1 1
  (Function.update (Function.update dest 0 ndevHd) idxJ ndevTail, idxJ + 1)

/-- The loop of `__uplink_escape`. Its `int` counters are numbers: `idxJ` stays in the range as long
as the escaped frame, at most twice `slen`, is no longer than INT_MAX. The callers' frames are in
buffers of 128 and 512 bytes. -/
def uplinkLoop (src : Nat → UInt8) (slen : Int) (dest : Nat → UInt8) (idxI idxJ : Nat) :
    (Nat → UInt8) × Nat :=
  if (idxI : Int) ≤ slen - 2 then
    if src idxI = ndevHd then
      uplinkLoop src slen (store dest idxJ [ndevEscF0h, ndevEsc01h]) (idxI + 1) (idxJ + 2)
    else if src idxI = ndevTail then
      uplinkLoop src slen (store dest idxJ [ndevEscF0h, ndevEsc00h]) (idxI + 1) (idxJ + 2)
    else if src idxI = ndevEscF0h then
      uplinkLoop src slen (store dest idxJ [ndevEscF0h, ndevEsc02h]) (idxI + 1) (idxJ + 2)
    else uplinkLoop src slen (store dest idxJ [src idxI]) (idxI + 1) (idxJ + 1)
  else (dest, idxJ)
termination_by (slen - idxI).toNat
decreasing_by all_goals omega

def uplinkEscape (dest src : Nat → UInt8) (slen : Int) : (Nat → UInt8) × Nat :=
  let (dest, idxJ) := uplinkLoop src slen dest 1 1
  (Function.update (Function.update dest 0 ndevHd) idxJ ndevTail, idxJ + 1)

/-- What `__uplink_escape` writes after 0xF0. -/
def escapeCode (b : UInt8) : Option UInt8 :=
  if b = ndevHd then some ndevEsc01h
  else if b = ndevTail then some ndevEsc00h
  else if b = ndevEscF0h then some ndevEsc02h
  else none

theorem escapeCode_cases (b : UInt8) :
    (b = ndevHd ∧ escapeCode b = some ndevEsc01h) ∨
    (b = ndevTail ∧ escapeCode b = some ndevEsc00h) ∨
    (b = ndevEscF0h ∧ escapeCode b = some ndevEsc02h) ∨
    (b ≠ ndevHd ∧ b ≠ ndevTail ∧ b ≠ ndevEscF0h ∧ escapeCode b = none) := by
  by_cases hhd : b = ndevHd
  · exact Or.inl ⟨hhd, by rw [hhd]; rfl⟩
  · by_cases htail : b = ndevTail
    · exact Or.inr (Or.inl ⟨htail, by rw [htail]; rfl⟩)
    · by_cases hesc : b = ndevEscF0h
      · exact Or.inr (Or.inr (Or.inl ⟨hesc, by rw [hesc]; rfl⟩))
      · refine Or.inr (Or.inr (Or.inr ⟨hhd, htail, hesc, ?_⟩))
        rw [escapeCode, if_neg hhd, if_neg htail, if_neg hesc]

/-- The escaping of both loops. -/
def nodeStuffing : Stuffing UInt8 where
  esc := ndevEscF0h
  code := escapeCode
  code_code := by
    intro a c h
    rcases escapeCode_cases a with ⟨-, ha⟩ | ⟨-, ha⟩ | ⟨-, ha⟩ | ⟨-, -, -, ha⟩
    all_goals rw [ha] at h
    all_goals cases h
    all_goals decide

theorem mem_codes_iff (c : UInt8) :
    (∃ a, nodeStuffing.code a = some c) ↔ c = ndevEsc00h ∨ c = ndevEsc01h ∨ c = ndevEsc02h := by
  constructor
  · intro h'
    obtain ⟨a, ha⟩ := h'
    rcases escapeCode_cases a with ⟨-, h⟩ | ⟨-, h⟩ | ⟨-, h⟩ | ⟨-, -, -, h⟩
    all_goals rw [show escapeCode a = some c from ha] at h
    all_goals cases h
    all_goals decide
  · intro h'
    rcases h' with rfl | rfl | rfl
    · exact ⟨ndevTail, rfl⟩
    · exact ⟨ndevHd, rfl⟩
    · exact ⟨ndevEscF0h, rfl⟩

theorem uplinkLoop_step {src : Nat → UInt8} {slen : Int} {idxI : Nat} (h : (idxI : Int) ≤ slen - 2)
    (dest : Nat → UInt8) (idxJ : Nat) :
    uplinkLoop src slen dest idxI idxJ =
      uplinkLoop src slen (store dest idxJ (nodeStuffing.stuffSymbol (src idxI))) (idxI + 1)
        (idxJ + (nodeStuffing.stuffSymbol (src idxI)).length) := by
  rw [uplinkLoop, if_pos h]
  rcases escapeCode_cases (src idxI) with ⟨hb, hc⟩ | ⟨hb, hc⟩ | ⟨hb, hc⟩ | ⟨h1, h2, h0, hc⟩
  · rw [if_pos hb, nodeStuffing.stuffSymbol_some hc]
    rfl
  · rw [if_neg (by rw [hb]; decide), if_pos hb, nodeStuffing.stuffSymbol_some hc]
    rfl
  · rw [if_neg (by rw [hb]; decide), if_neg (by rw [hb]; decide), if_pos hb,
      nodeStuffing.stuffSymbol_some hc]
    rfl
  · rw [if_neg h1, if_neg h2, if_neg h0, nodeStuffing.stuffSymbol_none hc]
    rfl

/-- From `idxI` on the loop writes the stuffed rest of the interior. -/
theorem uplinkLoop_eq (src : Nat → UInt8) (slen : Int) (dest : Nat → UInt8) (idxI idxJ n : Nat)
    (hn : (idxI : Int) + n = slen - 1) :
    uplinkLoop src slen dest idxI idxJ =
      (store dest idxJ (nodeStuffing.stuff (load src idxI n)),
        idxJ + (nodeStuffing.stuff (load src idxI n)).length) := by
  induction n generalizing dest idxI idxJ with
  | zero =>
    rw [uplinkLoop, if_neg (by omega)]
    rfl
  | succ n ih =>
    rw [uplinkLoop_step (by omega), ih _ _ _ (by omega), load_succ, Stuffing.stuff_cons,
      store_append, List.length_append, Nat.add_assoc]

/-- A head, a text and a tail, as both functions leave them. -/
theorem load_framed (m : Nat → UInt8) (text : List UInt8) :
    load (Function.update (Function.update (store m 1 text) 0 ndevHd) (1 + text.length) ndevTail) 0
      (1 + text.length + 1) = ndevHd :: text ++ [ndevTail] := by
  have hinside : load (Function.update (Function.update (store m 1 text) 0 ndevHd)
      (1 + text.length) ndevTail) 1 text.length = text := by
    conv_rhs => rw [← load_store m 1 text]
    apply load_congr
    intro k hk hlt
    rw [Function.update_of_ne (by omega), Function.update_of_ne (by omega)]
  rw [load_concat, Nat.zero_add, Function.update_self, Nat.add_comm 1, load_succ,
    Function.update_of_ne (by omega), Function.update_self, Nat.add_comm _ 1, hinside]

/-- The bytes that a call leaves in its destination. -/
def output (r : (Nat → UInt8) × Nat) : List UInt8 := load r.1 0 r.2

/-- What `__uplink_escape` writes, whatever the destination held. -/
theorem output_uplinkEscape (dest src : Nat → UInt8) {n : Nat} (hn : 2 ≤ n) :
    output (uplinkEscape dest src n) =
      ndevHd :: nodeStuffing.stuff (load src 1 (n - 2)) ++ [ndevTail] := by
  rw [output, uplinkEscape, uplinkLoop_eq src n dest 1 1 (n - 2) (by omega)]
  exact load_framed dest _

theorem downlinkLoop_pair {src : Nat → UInt8} {slen : Int} {idxI : Nat}
    (h : (idxI : Int) ≤ slen - 2) (hesc : src idxI = ndevEscF0h) {a : UInt8}
    (hcode : escapeCode a = some (src (idxI + 1))) (dest : Nat → UInt8) (idxJ : Nat) :
    downlinkLoop src slen dest idxI idxJ =
      downlinkLoop src slen (Function.update dest idxJ a) (idxI + 2) (idxJ + 1) := by
  rw [downlinkLoop, if_pos h, if_pos hesc]
  rcases escapeCode_cases a with ⟨ha, hc⟩ | ⟨ha, hc⟩ | ⟨ha, hc⟩ | ⟨-, -, -, hc⟩
  · have hnext := Option.some.inj (hcode.symm.trans hc)
    simp only [hnext, ha]
    rfl
  · have hnext := Option.some.inj (hcode.symm.trans hc)
    simp only [hnext, ha]
    rfl
  · have hnext := Option.some.inj (hcode.symm.trans hc)
    simp only [hnext, ha]
    rfl
  · rw [hc] at hcode
    cases hcode

theorem downlinkLoop_plain {src : Nat → UInt8} {slen : Int} {idxI : Nat}
    (h : (idxI : Int) ≤ slen - 2) (hesc : src idxI ≠ ndevEscF0h) (dest : Nat → UInt8)
    (idxJ : Nat) :
    downlinkLoop src slen dest idxI idxJ =
      downlinkLoop src slen (Function.update dest idxJ (src idxI)) (idxI + 1) (idxJ + 1) := by
  rw [downlinkLoop, if_pos h, if_neg hesc]

/-- On stuffed text the loop writes the text. -/
theorem downlinkLoop_stuff {src : Nat → UInt8} {slen : Int} {l : List UInt8} {idxI : Nat}
    (hsrc : load src idxI (nodeStuffing.stuff l).length = nodeStuffing.stuff l)
    (hn : (idxI : Int) + (nodeStuffing.stuff l).length = slen - 1) (dest : Nat → UInt8)
    (idxJ : Nat) :
    downlinkLoop src slen dest idxI idxJ = (store dest idxJ l, idxJ + l.length) := by
  induction l generalizing dest idxI idxJ with
  | nil =>
    rw [Stuffing.stuff_nil, List.length_nil] at hn
    rw [downlinkLoop, if_neg (by omega)]
    rfl
  | cons a l ih =>
    rw [Stuffing.stuff_cons] at hsrc hn
    rw [store, List.length_cons, ← Nat.add_assoc, Nat.add_right_comm]
    cases hcode : escapeCode a with
    | some c =>
      rw [nodeStuffing.stuffSymbol_some hcode] at hsrc hn
      simp only [List.cons_append, List.nil_append, List.length_cons] at hsrc hn
      rw [load_succ, load_succ] at hsrc
      obtain ⟨hesc, hrest⟩ := List.cons.inj hsrc
      obtain ⟨hc, hrest⟩ := List.cons.inj hrest
      rw [downlinkLoop_pair (by omega) hesc (by rw [hc]; exact hcode)]
      exact ih hrest (by omega) _ _
    | none =>
      rw [nodeStuffing.stuffSymbol_none hcode] at hsrc hn
      simp only [List.cons_append, List.nil_append, List.length_cons] at hsrc hn
      rw [load_succ] at hsrc
      obtain ⟨ha, hrest⟩ := List.cons.inj hsrc
      have hne : a ≠ ndevEscF0h := by
        intro heq
        rw [heq] at hcode
        exact absurd hcode (by decide)
      rw [downlinkLoop_plain (by omega) (by rw [ha]; exact hne), ha]
      exact ih hrest (by omega) _ _

/-- Un-escaping a frame whose interior is stuffed text. -/
theorem output_downlinkEscape (dest : Nat → UInt8) {src : Nat → UInt8} {n : Nat} (hn : 2 ≤ n)
    {l : List UInt8} (hsrc : load src 1 (n - 2) = nodeStuffing.stuff l) :
    output (downlinkEscape dest src n) = ndevHd :: l ++ [ndevTail] := by
  have hlen : (nodeStuffing.stuff l).length = n - 2 := by rw [← hsrc, length_load]
  rw [output, downlinkEscape, downlinkLoop_stuff (by rw [hlen]; exact hsrc) (by omega)]
  exact load_framed dest l

theorem length_output (r : (Nat → UInt8) × Nat) : (output r).length = r.2 := length_load _ _ _

/-- A frame of at least two bytes is its first byte, its interior and its last byte. -/
theorem load_frame (m : Nat → UInt8) {n : Nat} (hn : 2 ≤ n) :
    load m 0 n = m 0 :: load m 1 (n - 2) ++ [m (n - 1)] := by
  obtain ⟨k, rfl⟩ : ∃ k, n = k + 1 + 1 := ⟨n - 2, by omega⟩
  rw [load_concat, load_succ, Nat.zero_add, Nat.zero_add, Nat.add_sub_cancel]
  rfl

theorem interior_of_output {r : (Nat → UInt8) × Nat} {text : List UInt8}
    (h : output r = ndevHd :: text ++ [ndevTail]) :
    r.2 = text.length + 2 ∧ load r.1 1 (r.2 - 2) = text := by
  have hlen : r.2 = text.length + 2 := by
    rw [← length_output, h]
    simp
  refine ⟨hlen, ?_⟩
  rw [output, load_frame _ (by omega : 2 ≤ r.2)] at h
  have htail := (List.cons.inj h).2
  exact List.append_inj_left htail (by rw [length_load]; omega)

/-- Every escape byte of the text that is not the code of an earlier one is followed by
0x00, 0x01 or 0x02. -/
def EscapesPaired (text : List UInt8) : Prop :=
  Stuffing.Paired ndevEscF0h (fun c => c = ndevEsc00h ∨ c = ndevEsc01h ∨ c = ndevEsc02h) text

instance (text : List UInt8) : Decidable (EscapesPaired text) :=
  inferInstanceAs (Decidable (Stuffing.Paired _ _ text))

theorem exists_stuff_of_paired {text : List UInt8}
    (hplain : ∀ b ∈ text, b ≠ ndevHd ∧ b ≠ ndevTail) (hpaired : EscapesPaired text) :
    ∃ l, nodeStuffing.stuff l = text := by
  apply nodeStuffing.exists_stuff
  · intro b hb hesc
    obtain ⟨hhd, htail⟩ := hplain b hb
    have hf0 : b ≠ ndevEscF0h := hesc
    show escapeCode b = none
    rw [escapeCode, if_neg hhd, if_neg htail, if_neg hf0]
  · simp only [mem_codes_iff]
    exact hpaired

/-- Un-escaping an escaped frame gives the frame back. -/
theorem output_downlink_uplink (dest dest' src : Nat → UInt8) {n : Nat} (hn : 2 ≤ n)
    (hhd : src 0 = ndevHd) (htail : src (n - 1) = ndevTail) :
    output (downlinkEscape dest' (uplinkEscape dest src n).1 (uplinkEscape dest src n).2) =
      load src 0 n := by
  obtain ⟨hlen, hinterior⟩ := interior_of_output (output_uplinkEscape dest src hn)
  rw [output_downlinkEscape dest' (by omega) hinterior, load_frame src hn, hhd, htail]

/-- Escaping and un-escaping undo each other, on every raw frame and on every well-formed
escaped frame, whatever the destination buffers held. -/
theorem escape_bijection (dest dest' src : Nat → UInt8) (n : Nat) (hn : 2 ≤ n)
    (hhd : src 0 = ndevHd) (htail : src (n - 1) = ndevTail) :
    (output (downlinkEscape dest' (uplinkEscape dest src n).1 (uplinkEscape dest src n).2) =
      load src 0 n) ∧
    ((∀ b ∈ load src 1 (n - 2), b ≠ ndevHd ∧ b ≠ ndevTail) →
      EscapesPaired (load src 1 (n - 2)) →
      output (uplinkEscape dest' (downlinkEscape dest src n).1 (downlinkEscape dest src n).2) =
        load src 0 n) := by
  refine ⟨output_downlink_uplink dest dest' src hn hhd htail, ?_⟩
  intro hplain hpaired
  obtain ⟨l, hl⟩ := exists_stuff_of_paired hplain hpaired
  obtain ⟨hlen, hinterior⟩ := interior_of_output (output_downlinkEscape dest hn hl.symm)
  rw [output_uplinkEscape dest' _ (by omega), hinterior, hl, load_frame src hn, hhd, htail]

/-- The frame F1 F0 01 07 F2, both as a raw and as an escaped frame. -/
theorem escape_bijection_five_bytes :
    let src := store (fun _ => 0) 0 [0xF1, 0xF0, 0x01, 0x07, 0xF2]
    let dest := fun _ => 0
    (output (downlinkEscape dest (uplinkEscape dest src 5).1 (uplinkEscape dest src 5).2) =
      [0xF1, 0xF0, 0x01, 0x07, 0xF2]) ∧
    output (uplinkEscape dest (downlinkEscape dest src 5).1 (downlinkEscape dest src 5).2) =
      [0xF1, 0xF0, 0x01, 0x07, 0xF2] := by
  intro src dest
  have h := escape_bijection dest dest src 5 (by decide) (by decide) (by decide)
  exact ⟨h.1, h.2 (by decide +kernel) (by decide +kernel)⟩

end BackupSoftware.NodeServer
