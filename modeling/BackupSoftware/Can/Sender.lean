import BackupSoftware.Can.Frame
import BackupSoftware.Library.Bytes
import Mathlib.Data.List.Nodup

/-!
# Fragmentation: `lib_ctos_put` and `lib_ctos_put_priority`

The bytes at the caller's `data` pointer are a function of the offset, so that a
copy of eight bytes from a shorter payload reads what lies behind it, as in C.
`writen k` tells whether the `k`-th `lib_writen` of a call writes the whole frame.
-/

namespace BackupSoftware.Can

open BackupSoftware.Library.Bytes

/-- The next serial number, `frame_sn_get`: it runs through 0..7. -/
def frameSnGet (ctos : LibCtos) : UInt8 × LibCtos :=
  let sn := ctos.sn + 1
  let sn := if sn > 7 then 0 else sn
  (sn, { ctos with sn := sn })

/-- The data of a zeroed frame after `memcpy(meta.data, data + i * 8, count)`. -/
def chunk (data : Nat → UInt8) (i count : Nat) : Vector UInt8 8 :=
  Vector.ofFn fun j => if j.val < count then data (i * 8 + j.val) else 0

/-- A frame as both put functions set it up, before its mark and data. -/
def frameInit (ctos : LibCtos) (destAddr random priority : UInt8) (i : Nat) :
    CanFrameMetadata where
  dAddr := BitVec.ofNat 7 destAddr.toNat
  sAddr := BitVec.ofNat 7 ctos.canId.toNat
  frameMark := .single
  frameSeq := BitVec.ofNat 6 i
  random := BitVec.ofNat 3 random.toNat
  rsv := 0
  priority := BitVec.ofNat 1 priority.toNat
  err := 0
  rtr := 0
  eff := 1
  canDlc := 8
  data := Vector.replicate 8 0

/-- The `for` loop of the put functions, with `todo` iterations left: it returns
the frames written and the code. A tail copies only what is left to send. -/
def putLoop (writen : Nat → Bool) (ctos : LibCtos) (destAddr random priority : UInt8)
    (data : Nat → UInt8) (len frameNum : Nat) : Nat → Nat → Nat → List CanFrameMetadata × Int
  | 0, _, _ => ([], libCtosEok)
  | todo + 1, i, sendBytes =>
      let frame := frameInit ctos destAddr random priority i
      let (frame, sent) :=
        if i = 0 then
          ({ frame with frameMark := .head, data := chunk data i 8 }, sendBytes + 8)
        else if i = frameNum - 1 then
          ({ frame with frameMark := .tail, data := chunk data i (len - sendBytes) }, sendBytes)
        else
          ({ frame with frameMark := .middle, data := chunk data i 8 }, sendBytes + 8)
      if writen i then
        let (frames, ret) :=
          putLoop writen ctos destAddr random priority data len frameNum todo (i + 1) sent
        (frame :: frames, ret)
      else ([], libCtosError)

/-- The number of frames of a payload: `len / 8`, rounded up. -/
def frameCount (len : Nat) : Nat := if len % 8 ≠ 0 then len / 8 + 1 else len / 8

/-- The common body of the two put functions. The single-frame branch does not
return: a payload of one frame falls through into the loop. -/
def putBody (writen : Nat → Bool) (ctos : LibCtos) (destAddr : UInt8) (data : Nat → UInt8)
    (len : Nat) (priority : UInt8) : LibCtos × List CanFrameMetadata × Int :=
  let (random, ctos) := frameSnGet ctos
  let frameNum := frameCount len
  let loop (writen : Nat → Bool) :=
    putLoop writen ctos destAddr random priority data len frameNum frameNum 0 0
  if frameNum = 1 then
    let single := frameInit ctos destAddr random priority 0
    if writen 0 then
      let (frames, ret) := loop fun k => writen (k + 1)
      (ctos, single :: frames, ret)
    else (ctos, [], libCtosError)
  else
    (ctos, loop writen)

def libCtosPut (writen : Nat → Bool) (ctos : LibCtos) (destAddr : UInt8) (data : Nat → UInt8)
    (len : Nat) : LibCtos × List CanFrameMetadata × Int :=
  putBody writen ctos destAddr data len canPriorityLow

def libCtosPutPriority (writen : Nat → Bool) (ctos : LibCtos) (destAddr : UInt8)
    (data : Nat → UInt8) (len : Nat) (priority : UInt8) : LibCtos × List CanFrameMetadata × Int :=
  putBody writen ctos destAddr data len priority

/-- The first `len` bytes at the data pointer. -/
def payload (data : Nat → UInt8) (len : Nat) : List UInt8 := (List.range len).map data

theorem length_payload (data : Nat → UInt8) (len : Nat) : (payload data len).length = len := by
  simp [payload]

/-- The payload continued with zeros, as a function of the offset. -/
def paddedByte (data : Nat → UInt8) (len k : Nat) : UInt8 := if k < len then data k else 0

theorem getElem?_zeroPad8_payload (data : Nat → UInt8) (len : Nat) {k : Nat}
    (hk : k < 8 * ((len + 7) / 8)) :
    (zeroPad8 (payload data len))[k]? = some (paddedByte data len k) := by
  rw [getElem?_zeroPad8 _ (by rw [length_payload]; exact hk)]
  unfold payload paddedByte
  by_cases h : k < len
  · rw [List.getElem?_map, List.getElem?_range h, if_pos h]
    rfl
  · rw [List.getElem?_map, List.getElem?_eq_none (by simpa using h), if_neg h]
    rfl

theorem frameCount_eq (len : Nat) : frameCount len = (len + 7) / 8 := by
  unfold frameCount
  split <;> omega

/-- What one put call puts on the bus: the sender after `frame_sn_get`, the random
code it drew, and the caller's arguments. -/
structure Message where
  ctos : LibCtos
  destAddr : UInt8
  random : UInt8
  priority : UInt8
  data : Nat → UInt8
  len : Nat

namespace Message

def size (m : Message) : Nat := frameCount m.len

def frame (m : Message) (i : Nat) : CanFrameMetadata :=
  { frameInit m.ctos m.destAddr m.random m.priority i with
    frameMark := if i = 0 then .head else if i = m.size - 1 then .tail else .middle
    data := Vector.ofFn fun j => paddedByte m.data m.len (i * 8 + j.val) }

def frames (m : Message) : List CanFrameMetadata := (List.range m.size).map m.frame

/-- The payload zero-padded to a multiple of eight. -/
def block (m : Message) : List UInt8 := zeroPad8 (payload m.data m.len)

theorem length_block (m : Message) : m.block.length = 8 * m.size := by
  rw [block, length_zeroPad8, length_payload, size, frameCount_eq]

theorem getElem?_block (m : Message) {k : Nat} (hk : k < 8 * m.size) :
    m.block[k]? = some (paddedByte m.data m.len k) := by
  rw [size, frameCount_eq] at hk
  exact getElem?_zeroPad8_payload m.data m.len hk

theorem frame_seq (m : Message) {i : Nat} (hi : i < 64) : (m.frame i).frameSeq.toNat = i :=
  Nat.mod_eq_of_lt hi

theorem frame_head (m : Message) : (m.frame 0).frameMark = .head := rfl

theorem frame_middle (m : Message) {i : Nat} (h0 : 0 < i) (hi : i < m.size - 1) :
    (m.frame i).frameMark = .middle := by
  simp only [frame, if_neg (Nat.ne_of_gt h0), if_neg (Nat.ne_of_lt hi)]

theorem frame_tail (m : Message) (h2 : 2 ≤ m.size) :
    (m.frame (m.size - 1)).frameMark = .tail := by
  have h0 : ¬ m.size - 1 = 0 := by omega
  simp only [frame, if_neg h0, ↓reduceIte]

theorem eq_last_of_tail (m : Message) {i : Nat} (h : (m.frame i).frameMark = .tail) :
    i = m.size - 1 := by
  by_contra hne
  simp only [frame, if_neg hne] at h
  split at h <;> cases h

theorem frame_ne_single (m : Message) (i : Nat) : (m.frame i).frameMark ≠ .single := by
  simp only [frame]
  split
  · decide
  · split <;> decide

theorem frames_nodup (m : Message) (h : m.size ≤ 64) : m.frames.Nodup := by
  refine List.Nodup.map_on ?_ List.nodup_range
  intro i hi j hj heq
  have hseq := congrArg (fun f => f.frameSeq.toNat) heq
  have hi' := List.mem_range.mp hi
  have hj' := List.mem_range.mp hj
  simpa only [m.frame_seq (show i < 64 by omega), m.frame_seq (show j < 64 by omega)] using hseq

end Message

def messageOf (ctos : LibCtos) (destAddr : UInt8) (data : Nat → UInt8) (len : Nat)
    (priority : UInt8) : Message :=
  ⟨(frameSnGet ctos).2, destAddr, (frameSnGet ctos).1, priority, data, len⟩

theorem chunk_eq (data : Nat → UInt8) (len i count : Nat)
    (h : ∀ j < 8, j < count ↔ i * 8 + j < len) :
    chunk data i count = Vector.ofFn fun j => paddedByte data len (i * 8 + j.val) := by
  unfold chunk
  congr 1
  funext j
  unfold paddedByte
  simp only [h j.val j.isLt]

/-- From iteration `i` on, with everything before it sent, the loop writes the
message's frames in order, as long as every write succeeds. -/
theorem putLoop_frames (m : Message) (h2 : 2 ≤ m.size) (writen : Nat → Bool) (todo i : Nat)
    (hi : i + todo = m.size) (hw : ∀ k, i ≤ k → k < m.size → writen k = true) :
    putLoop writen m.ctos m.destAddr m.random m.priority m.data m.len m.size todo i (i * 8) =
      ((List.range' i todo).map m.frame, libCtosEok) := by
  have hn : m.size = (m.len + 7) / 8 := frameCount_eq m.len
  induction todo generalizing i with
  | zero => rfl
  | succ todo ih =>
    have hnext := ih (i + 1) (by omega) fun k hk hk' => hw k (by omega) hk'
    have hwi := hw i (Nat.le_refl i) (by omega)
    rw [List.range'_succ, List.map_cons]
    by_cases h0 : i = 0
    · subst h0
      have hc := chunk_eq m.data m.len 0 8 (by intro j hj; omega)
      simp only [putLoop, ↓reduceIte, hwi, Nat.zero_add, Nat.zero_mul] at hnext ⊢
      rw [hnext, hc]
      simp only [Message.frame, ↓reduceIte]
    · by_cases hlast : i = m.size - 1
      · have ht : todo = 0 := by omega
        subst ht
        have hc := chunk_eq m.data m.len i (m.len - i * 8)
          (by intro j hj; omega)
        simp only [putLoop, h0, ← hlast, ↓reduceIte, hwi, List.range'_zero, List.map_nil]
        rw [hc]
        simp only [Message.frame, h0, ← hlast, ↓reduceIte]
      · have hc := chunk_eq m.data m.len i 8 (by intro j hj; omega)
        have hs : i * 8 + 8 = (i + 1) * 8 := by omega
        simp only [putLoop, h0, hlast, ↓reduceIte, hwi]
        rw [hs, hnext, hc]
        simp only [Message.frame, h0, hlast, ↓reduceIte]

theorem putLoop_eok {writen : Nat → Bool} {ctos : LibCtos} {destAddr random priority : UInt8}
    {data : Nat → UInt8} {len frameNum todo i sendBytes : Nat}
    (h : (putLoop writen ctos destAddr random priority data len frameNum todo i sendBytes).2 =
      libCtosEok) : ∀ k, i ≤ k → k < i + todo → writen k = true := by
  induction todo generalizing i sendBytes with
  | zero => intro k hk hk'; omega
  | succ todo ih =>
    intro k hk hk'
    rw [putLoop] at h
    cases hw : writen i with
    | false =>
      simp only [hw, Bool.false_eq_true, ↓reduceIte] at h
      cases h
    | true =>
      simp only [hw, ↓reduceIte] at h
      by_cases he : k = i
      · rw [he, hw]
      · exact ih h k (by omega) (by omega)

theorem putBody_frames {writen : Nat → Bool} (ctos : LibCtos) (destAddr : UInt8)
    (data : Nat → UInt8) {len : Nat} (priority : UInt8) (hl : 9 ≤ len)
    (hw : ∀ k < frameCount len, writen k = true) :
    putBody writen ctos destAddr data len priority =
      ((frameSnGet ctos).2, (messageOf ctos destAddr data len priority).frames, libCtosEok) := by
  have hn : frameCount len = (len + 7) / 8 := frameCount_eq len
  have h1 : ¬ frameCount len = 1 := by omega
  have hsize : (messageOf ctos destAddr data len priority).size = frameCount len := rfl
  have hloop := putLoop_frames (messageOf ctos destAddr data len priority) (by omega) writen
    (frameCount len) 0 (by omega) (fun k _ hk => hw k hk)
  rw [Nat.zero_mul, ← List.range_eq_range'] at hloop
  simp only [putBody, h1, ↓reduceIte]
  exact congrArg (Prod.mk _) hloop

theorem putBody_eok {writen : Nat → Bool} {ctos : LibCtos} {destAddr : UInt8}
    {data : Nat → UInt8} {len : Nat} {priority : UInt8} (hl : 9 ≤ len)
    (h : (putBody writen ctos destAddr data len priority).2.2 = libCtosEok) :
    ∀ k < frameCount len, writen k = true := by
  have hn : frameCount len = (len + 7) / 8 := frameCount_eq len
  have h1 : ¬ frameCount len = 1 := by omega
  simp only [putBody, h1, ↓reduceIte] at h
  exact fun k hk => putLoop_eok h k (Nat.zero_le k) (by omega)

/-- A call with one to eight bytes writes a single frame without data and then,
from the loop, a head frame with the eight bytes at the data pointer. -/
theorem putBody_short {ctos : LibCtos} {destAddr : UInt8} {data : Nat → UInt8} {len : Nat}
    {priority : UInt8} (h1 : 1 ≤ len) (h8 : len ≤ 8) :
    putBody (fun _ => true) ctos destAddr data len priority =
      ((frameSnGet ctos).2,
        [frameInit (frameSnGet ctos).2 destAddr (frameSnGet ctos).1 priority 0,
         { frameInit (frameSnGet ctos).2 destAddr (frameSnGet ctos).1 priority 0 with
           frameMark := .head, data := chunk data 0 8 }], libCtosEok) := by
  have hn : frameCount len = 1 := by rw [frameCount_eq]; omega
  simp only [putBody, hn, ↓reduceIte, putLoop]

end BackupSoftware.Can
