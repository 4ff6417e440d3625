import BackupSoftware.Can.Sender
import BackupSoftware.Can.Receiver

/-!
# A message fed to the buffer of its stake

`Progress m j buf` says that the first `j` frames of message `m` have arrived.
A head frame establishes it from any buffer, middle frames carry it on, and the
tail pushes the message, cut to the value of the one-byte length counter.
-/

namespace BackupSoftware.Can

open BackupSoftware.Library.Bytes BackupSoftware.Library.Trace

theorem slotsAgree_iff (buf : StakeFrameBuf) :
    SlotsAgree buf ↔ ∀ i, ∀ hi : i < 64, i < buf.cnt.toNat → buf.random[i] = buf.random[0] := by
  unfold SlotsAgree
  constructor
  · intro h i hi hc
    apply h
    rw [List.mem_take_iff_getElem]
    exact ⟨i, by simp; omega, by simp⟩
  · intro h v hv
    obtain ⟨i, hi, rfl⟩ := List.mem_take_iff_getElem.mp hv
    have hl : i < 64 := by simp at hi; omega
    simpa using h i hl (by omega)

structure Progress (m : Message) (j : Nat) (buf : StakeFrameBuf) : Prop where
  head : buf.hasFrameHead = 1
  cnt : buf.cnt.toNat = j - 1
  len : buf.len.toNat = 8 * j % 256
  slots : ∀ i, ∀ hi : i < 64, i < j - 1 → buf.random[i] = UInt8.ofNat (m.frame 0).random.toNat
  data : ∀ k, ∀ hk : k < 320, buf.data[k] = if k < 8 * j then paddedByte m.data m.len k else 0

theorem frame_data_get (m : Message) (i : Nat) {k : Nat} (hk : i * 8 ≤ k ∧ k < i * 8 + 8)
    (hb : k - i * 8 < 8) : (m.frame i).data[k - i * 8] = paddedByte m.data m.len k := by
  simp only [Message.frame, Vector.getElem_ofFn]
  congr 1
  omega

/-- Copying frame `j` behind the first `j` frames extends the data by eight bytes. -/
theorem overlay_progress (m : Message) {j : Nat} {data : Vector UInt8 320} (hj : j < 64)
    (hd : ∀ k, ∀ hk : k < 320, data[k] = if k < 8 * j then paddedByte m.data m.len k else 0)
    {k : Nat} (hk : k < 320) :
    (overlay data ((m.frame j).frameSeq.toNat * 8) (m.frame j).data)[k] =
      if k < 8 * (j + 1) then paddedByte m.data m.len k else 0 := by
  rw [m.frame_seq hj]
  by_cases h : j * 8 ≤ k ∧ k < j * 8 + 8
  · rw [overlay_inside _ _ _ hk h, frame_data_get m j h, if_pos (by omega)]
  · rw [overlay_outside _ _ _ hk h, hd k hk]
    by_cases hlt : k < 8 * j
    · rw [if_pos hlt, if_pos (by omega)]
    · rw [if_neg hlt, if_neg (by omega)]

theorem progress_head (m : Message) : Progress m 1 (headBuf (m.frame 0)) where
  head := rfl
  cnt := rfl
  len := rfl
  slots := by intro i _ h; omega
  data := by
    intro k hk
    exact overlay_progress m (by omega) (by intro k hk; simp [StakeFrameBuf.zero]) hk

theorem byte_succ (b : UInt8) : (b + 1).toNat = (b.toNat + 1) % 256 := UInt8.toNat_add b 1

theorem byte_add_eight (b : UInt8) : (b + 8).toNat = (b.toNat + 8) % 256 := UInt8.toNat_add b 8

theorem progress_middle {m : Message} {j : Nat} {buf : StakeFrameBuf} (h1 : 1 ≤ j) (hj : j < 64)
    (h : Progress m j buf) : Progress m (j + 1) (middleBuf buf (m.frame j)) where
  head := h.head
  cnt := by
    have hc := h.cnt
    simp only [middleBuf, byte_succ]
    omega
  len := by
    have hl := h.len
    simp only [middleBuf, byte_add_eight]
    omega
  slots := by
    intro i hi hij
    simp only [middleBuf]
    by_cases he : buf.cnt.toNat = i
    · subst he
      rw [Vector.getElem_setIfInBounds_self]
      rfl
    · rw [Vector.getElem_setIfInBounds_ne _ he]
      exact h.slots i hi (by have := h.cnt; omega)
  data := by
    intro k hk
    exact overlay_progress m hj h.data hk

theorem progress_tail_fits {m : Message} {buf : StakeFrameBuf} (h2 : 2 ≤ m.size)
    (h40 : m.size ≤ 40) (h : Progress m (m.size - 1) buf) :
    TailFits buf (m.frame (m.size - 1)) ∧ SlotsAgree buf := by
  have hc := h.cnt
  refine ⟨⟨?_, h.head⟩, (slotsAgree_iff buf).mpr ?_⟩
  · rw [byte_succ, m.frame_seq (by omega)]
    omega
  · intro i hi hic
    rw [h.slots i hi (by omega), h.slots 0 (by omega) (by omega)]

theorem progress_tail_block {m : Message} {buf : StakeFrameBuf} (h2 : 2 ≤ m.size)
    (h40 : m.size ≤ 40) (h : Progress m (m.size - 1) buf) :
    tailBlock buf (m.frame (m.size - 1)) = m.block.take (8 * m.size % 256) := by
  have hl : (buf.len + 8).toNat = 8 * m.size % 256 := by
    have hlen := h.len
    rw [byte_add_eight]
    omega
  have hs : m.size - 1 + 1 = m.size := by omega
  unfold tailBlock
  rw [hl]
  apply List.ext_getElem?
  intro k
  by_cases hk : k < 8 * m.size % 256
  · rw [List.getElem?_take_of_lt hk, List.getElem?_take_of_lt hk, m.getElem?_block (by omega)]
    have hget := overlay_progress m (j := m.size - 1) (by omega) h.data (k := k) (by omega)
    rw [hs, if_pos (by omega)] at hget
    rw [← hget, List.getElem?_eq_getElem (by simp; omega), Vector.getElem_toList]
  · rw [List.getElem?_eq_none (by simp; omega), List.getElem?_eq_none (by simp; omega)]

/-- What frame `i` of a message pushes when the message arrives whole. -/
def Message.pushAt (m : Message) (i : Nat) : Option (List UInt8) :=
  if i = m.size - 1 then some (m.block.take (8 * m.size % 256)) else none

theorem run_progress {m : Message} (h2 : 2 ≤ m.size) (h40 : m.size ≤ 40) (todo j : Nat)
    (hj : j + todo + 1 = m.size) (h1 : 1 ≤ j) {buf : StakeFrameBuf} (h : Progress m j buf) :
    run bufReceive buf ((List.range' j (todo + 1)).map m.frame) =
      .ok (StakeFrameBuf.zero, (List.range' j (todo + 1)).map m.pushAt) := by
  induction todo generalizing j buf with
  | zero =>
    have hlast : j = m.size - 1 := by omega
    subst hlast
    obtain ⟨hf, ha⟩ := progress_tail_fits h2 h40 h
    have hc : buf.cnt.toNat < 64 := by have := h.cnt; omega
    have hstep := bufReceive_tail_fits (m.frame_tail h2)
      (by rw [m.frame_seq (by omega)]; omega) hf
    rw [if_pos hc, if_pos ha, progress_tail_block h2 h40 h] at hstep
    have hpush : m.pushAt (m.size - 1) = some (m.block.take (8 * m.size % 256)) := if_pos rfl
    rw [List.range'_one, List.map_singleton, List.map_singleton, hpush]
    exact run_cons_ok hstep rfl
  | succ todo ih =>
    have hm := m.frame_middle (i := j) (by omega) (by omega)
    have hc : buf.cnt.toNat < 64 := by have := h.cnt; omega
    have hstep := bufReceive_middle buf hm (by rw [m.frame_seq (by omega)]; omega)
    have hpush : m.pushAt j = none := if_neg (by omega)
    rw [if_pos hc] at hstep
    rw [List.range'_succ, List.map_cons, List.map_cons, hpush]
    exact run_cons_ok hstep
      (ih (j + 1) (by omega) (by omega) (progress_middle h1 (by omega) h))

/-- A message of two to forty frames, fed in order to any buffer of its stake,
pushes its block cut to the length counter, at the tail and nowhere else. -/
theorem run_frames (m : Message) (h2 : 2 ≤ m.size) (h40 : m.size ≤ 40) (buf : StakeFrameBuf) :
    run bufReceive buf m.frames = .ok (StakeFrameBuf.zero, (List.range m.size).map m.pushAt) := by
  obtain ⟨n, hn⟩ : ∃ n, m.size = n + 2 := ⟨m.size - 2, by omega⟩
  have hhead := bufReceive_head buf m.frame_head
  rw [m.frame_seq (by omega), if_pos (by omega)] at hhead
  have htail := run_progress h2 h40 n 1 (by omega) (Nat.le_refl 1) (progress_head m)
  have hpush : m.pushAt 0 = none := if_neg (by omega)
  have hrange : List.range m.size = 0 :: List.range' 1 (n + 1) := by
    rw [hn, List.range_eq_range', List.range'_succ]
  rw [Message.frames, hrange, List.map_cons, List.map_cons, hpush]
  exact run_cons_ok hhead htail

theorem run_middles {frames : List CanFrameMetadata} (hm : ∀ f ∈ frames, f.frameMark = .middle)
    {buf buf' : StakeFrameBuf} {outs : List (Option (List UInt8))}
    (h : run bufReceive buf frames = .ok (buf', outs)) :
    buf'.cnt.toNat = (buf.cnt.toNat + frames.length) % 256 ∧
      (buf.cnt.toNat ≤ 64 → buf.cnt.toNat + frames.length ≤ 64) := by
  induction frames generalizing buf outs with
  | nil =>
    obtain ⟨rfl, -⟩ := run_nil_iff.mp h
    have := buf.cnt.toNat_lt
    simp only [List.length_nil]
    omega
  | cons f frames ih =>
    obtain ⟨buf₁, out, outs', hstep, hrest, -⟩ := run_cons_iff.mp h
    have hcnt := ih (fun g hg => hm g (List.mem_cons_of_mem _ hg)) hrest
    have hmid := hm f List.mem_cons_self
    rcases bufReceive_cases hstep with ⟨hs, -⟩ | ⟨-, ⟨hs, -⟩ | ⟨-, h64, rfl, -⟩ | ⟨hs, -⟩ | ⟨hs, -⟩⟩
    · rw [hmid] at hs; cases hs
    · rw [hmid] at hs; cases hs
    · simp only [middleBuf, byte_succ] at hcnt
      rw [List.length_cons]
      omega
    · rw [hmid] at hs; cases hs
    · rw [hmid] at hs; cases hs

theorem frames_admitted (m : Message) {canId : UInt8}
    (hid : m.ctos.canId.toNat % 128 ≠ canId.toNat) :
    ∀ f ∈ m.frames, Admitted canId f ∧ f.sAddr = BitVec.ofNat 7 m.ctos.canId.toNat := by
  intro f hf
  obtain ⟨i, -, rfl⟩ := List.mem_map.mp hf
  exact ⟨⟨by simp [Message.frame, frameInit], hid⟩, rfl⟩

theorem pushes_message (m : Message) (h2 : 2 ≤ m.size) :
    pushes ((List.range m.size).map m.pushAt) = [m.block.take (8 * m.size % 256)] := by
  obtain ⟨n, hn⟩ : ∃ n, m.size = n + 1 := ⟨m.size - 1, by omega⟩
  have hnone : (List.range n).filterMap (id ∘ m.pushAt) = [] := by
    rw [List.filterMap_eq_nil_iff]
    intro i hi
    have hlt := List.mem_range.mp hi
    exact if_neg (by omega)
  have hlast : m.pushAt n = some (m.block.take (8 * m.size % 256)) := if_pos (by omega)
  have hrange : List.range m.size = List.range n ++ [n] := by rw [hn, List.range_succ]
  rw [pushes, List.filterMap_map, hrange, List.filterMap_append, hnone, List.nil_append]
  simp only [List.filterMap_cons, List.filterMap_nil, Function.comp_apply, id_eq, hlast]

theorem reassembled_message (m : Message) (h2 : 2 ≤ m.size) (h40 : m.size ≤ 40)
    {canId : UInt8} (hid : m.ctos.canId.toNat % 128 ≠ canId.toNat) (sn : UInt8)
    (pack : StakeFrame) {blocks : List (List UInt8)} :
    Reassembled (.created canId sn pack) m.frames blocks ↔
      blocks = [m.block.take (8 * m.size % 256)] := by
  obtain ⟨pack', hrun, -, -⟩ := run_receive sn (frames_admitted m hid)
    (run_frames m h2 h40 (pack.stake (BitVec.ofNat 7 m.ctos.canId.toNat)))
  rw [reassembled_iff hrun, pushes_message m h2]

theorem block_eq_flatten (m : Message) :
    m.block = (m.frames.map fun f => f.data.toList).flatten := by
  have hcat := eq_flatten_groups (g := fun i => (m.frame i).data) m.length_block
    (by
      intro k hk
      rw [m.getElem?_block hk]
      simp only [Message.frame, Vector.getElem_ofFn]
      congr 2
      omega)
  rw [hcat, Message.frames, List.map_map]
  rfl

theorem groups8_block (m : Message) :
    groups8 m.block = m.frames.map fun f => f.data.toList := by
  rw [block_eq_flatten]
  apply groups8_flatten
  intro g hg
  obtain ⟨f, -, rfl⟩ := List.mem_map.mp hg
  simp

/-- Up to 31 frames the length counter does not wrap and the block is whole. -/
theorem block_take_whole {m : Message} (h31 : m.size ≤ 31) :
    m.block.take (8 * m.size % 256) = m.block :=
  List.take_of_length_le (by rw [m.length_block]; omega)

end BackupSoftware.Can
