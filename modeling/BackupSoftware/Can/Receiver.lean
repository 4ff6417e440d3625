import BackupSoftware.Can.Frame
import BackupSoftware.Library.Bytes
import BackupSoftware.Library.Trace

/-!
# Reassembly: `stake_cmd_buf_put`

The switch over the frame mark works on the buffer of one stake and is modelled
first. A write outside `random` or `data` has no defined effect in C; it is a
fault here, so a completed step is one whose accesses all lie inside the arrays.
What is handed to `lib_ringbuffer_putforce` is the step's result.
-/

namespace BackupSoftware.Can

open BackupSoftware.Library.Bytes BackupSoftware.Library.Trace

/-- The first index outside the array that a write touched. -/
inductive Fault where
  | data (index : Nat)
  | random (index : Nat)
  deriving DecidableEq, Repr

/-- What `stake_cmd_buf_put` returns: a code of its own, or what
`lib_ringbuffer_putforce` returned for the block handed to it. -/
inductive PutResult where
  | code (c : Int)
  | pushed (block : List UInt8)
  deriving DecidableEq

def PutResult.block : PutResult → Option (List UInt8)
  | .code _ => none
  | .pushed block => some block

/-- The copy `memcpy(&data[array_id], meta->data, CAN_FRAME_LEN_MAX)`. -/
def dataPut (data : Vector UInt8 320) (arrayId : Nat) (src : Vector UInt8 8) :
    Except Fault (Vector UInt8 320) :=
  if arrayId + 8 ≤ 320 then .ok (overlay data arrayId src) else .error (.data (max 320 arrayId))

/-- The store `random[cnt] = meta->random`. -/
def randomPut (random : Vector UInt8 64) (cnt : Nat) (r : BitVec 3) :
    Except Fault (Vector UInt8 64) :=
  if cnt < 64 then .ok (random.setIfInBounds cnt (UInt8.ofNat r.toNat)) else .error (.random cnt)

/-- The outcome of the switch: the stake's buffer, the number of increments of
`err_random` and the result. -/
structure SwitchResult where
  buf : StakeFrameBuf
  errRandom : Nat
  result : PutResult

/-- The switch over `frame_mark` in `stake_cmd_buf_put`, on `frame_buf[stake_id]`. A tail that does
not fit leaves its data and its count behind, and the loop over the random codes stops before the
slot that the tail has just filled. -/
def frameBufPut (buf : StakeFrameBuf) (frame : CanFrameMetadata) : Except Fault SwitchResult :=
  let arrayId := frame.frameSeq.toNat * 8
  match frame.frameMark with
  | .head => do
      let buf := StakeFrameBuf.zero
      let data ← dataPut buf.data arrayId frame.data
      let random ← randomPut buf.random 0 frame.random
      return ⟨{ hasFrameHead := 1, cnt := 0, len := buf.len + 8, random, data }, 0, .code libCtosEok⟩
  | .middle => do
      let data ← dataPut buf.data arrayId frame.data
      let random ← randomPut buf.random buf.cnt.toNat frame.random
      return ⟨{ buf with cnt := buf.cnt + 1, len := buf.len + 8, random, data }, 0, .code libCtosEok⟩
  | .tail => do
      let data ← dataPut buf.data arrayId frame.data
      let cnt := buf.cnt.toNat
      if (buf.cnt + 1).toNat ≠ frame.frameSeq.toNat ∨ buf.hasFrameHead ≠ 1 then
        return ⟨{ buf with cnt := buf.cnt + 1, data }, 0, .code libCtosExcmem⟩
      else
        let len := buf.len + 8
        let random ← randomPut buf.random cnt frame.random
        let mismatches := (random.toList.take cnt).countP (· ≠ random[0])
        if mismatches ≠ 0 then
          return ⟨StakeFrameBuf.zero, mismatches, .code libCtosError⟩
        else
          return ⟨StakeFrameBuf.zero, 0, .pushed (data.toList.take len.toNat)⟩
  | .single => return ⟨{ buf with len := 8 }, 0, .pushed frame.data.toList⟩

def stakeCmdBufPut (ctos : LibCtos) (frame : CanFrameMetadata) :
    Except Fault (LibCtos × PutResult) :=
  match ctos.packPtr with
  | none => .ok (ctos, .code libCtosError)
  | some pack =>
      if frame.err = 1 then
        let pack := { pack with errStatistics := pack.errStatistics + 1 }
        .ok ({ ctos with packPtr := some pack }, .code libCtosError)
      else if ctos.ringbuffer = false then
        .ok (ctos, .code libCtosError)
      else if h : frame.sAddr.toNat ≥ 128 ∨ frame.sAddr.toNat = ctos.canId.toNat then
        .ok (ctos, .code libCtosError)
      else do
        have hid : frame.sAddr.toNat < 128 := by omega
        let r ← frameBufPut pack.frameBuf[frame.sAddr.toNat] frame
        let pack :=
          { pack with
            errRandom := pack.errRandom + UInt32.ofNat r.errRandom
            frameBuf := pack.frameBuf.set frame.sAddr.toNat r.buf }
        return ({ ctos with packPtr := some pack }, r.result)

/-- One frame taken by the receiver, observed through the block it pushes. -/
def receive (ctos : LibCtos) (frame : CanFrameMetadata) :
    Except Fault (LibCtos × Option (List UInt8)) :=
  (stakeCmdBufPut ctos frame).map fun r => (r.1, r.2.block)

def bufReceive (buf : StakeFrameBuf) (frame : CanFrameMetadata) :
    Except Fault (StakeFrameBuf × Option (List UInt8)) :=
  (frameBufPut buf frame).map fun r => (r.buf, r.result.block)

def headBuf (frame : CanFrameMetadata) : StakeFrameBuf where
  hasFrameHead := 1
  cnt := 0
  len := 8
  random := StakeFrameBuf.zero.random.setIfInBounds 0 (UInt8.ofNat frame.random.toNat)
  data := overlay StakeFrameBuf.zero.data (frame.frameSeq.toNat * 8) frame.data

def middleBuf (buf : StakeFrameBuf) (frame : CanFrameMetadata) : StakeFrameBuf :=
  { buf with
    cnt := buf.cnt + 1
    len := buf.len + 8
    random := buf.random.setIfInBounds buf.cnt.toNat (UInt8.ofNat frame.random.toNat)
    data := overlay buf.data (frame.frameSeq.toNat * 8) frame.data }

def rejectedBuf (buf : StakeFrameBuf) (frame : CanFrameMetadata) : StakeFrameBuf :=
  { buf with
    cnt := buf.cnt + 1
    data := overlay buf.data (frame.frameSeq.toNat * 8) frame.data }

def tailBlock (buf : StakeFrameBuf) (frame : CanFrameMetadata) : List UInt8 :=
  (overlay buf.data (frame.frameSeq.toNat * 8) frame.data).toList.take (buf.len + 8).toNat

/-- The tail's number is the number of frames counted and a head is pending. -/
def TailFits (buf : StakeFrameBuf) (frame : CanFrameMetadata) : Prop :=
  (buf.cnt + 1).toNat = frame.frameSeq.toNat ∧ buf.hasFrameHead = 1

instance (buf : StakeFrameBuf) (frame : CanFrameMetadata) : Decidable (TailFits buf frame) :=
  inferInstanceAs (Decidable (_ ∧ _))

/-- The slots that the tail compares hold one random value. -/
def SlotsAgree (buf : StakeFrameBuf) : Prop :=
  ∀ v ∈ buf.random.toList.take buf.cnt.toNat, v = buf.random[0]

instance (buf : StakeFrameBuf) : Decidable (SlotsAgree buf) :=
  inferInstanceAs (Decidable (∀ v ∈ _, _))

/-- The tail's own slot plays no part in the comparison. -/
theorem mismatches_eq_zero_iff (buf : StakeFrameBuf) (r : UInt8) :
    ((buf.random.setIfInBounds buf.cnt.toNat r).toList.take buf.cnt.toNat).countP
      (· ≠ (buf.random.setIfInBounds buf.cnt.toNat r)[0]) = 0 ↔ SlotsAgree buf := by
  have htake : (buf.random.setIfInBounds buf.cnt.toNat r).toList.take buf.cnt.toNat =
      buf.random.toList.take buf.cnt.toNat := by
    rw [Vector.toList_setIfInBounds, List.take_set_of_le (Nat.le_refl _)]
  rw [htake]
  by_cases h0 : buf.cnt.toNat = 0
  · simp [SlotsAgree, h0]
  · have hslot : (buf.random.setIfInBounds buf.cnt.toNat r)[0] = buf.random[0] :=
      Vector.getElem_setIfInBounds_ne _ h0
    rw [hslot]
    simp [SlotsAgree, List.countP_eq_zero]

theorem bufReceive_head (buf : StakeFrameBuf) {frame : CanFrameMetadata}
    (hm : frame.frameMark = .head) :
    bufReceive buf frame = if frame.frameSeq.toNat < 40 then .ok (headBuf frame, none)
      else .error (.data (max 320 (frame.frameSeq.toNat * 8))) := by
  by_cases hs : frame.frameSeq.toNat < 40
  · have hd : frame.frameSeq.toNat * 8 + 8 ≤ 320 := by omega
    simp only [bufReceive, frameBufPut, hm, dataPut, hd, randomPut, hs, ↓reduceIte]
    rfl
  · have hd : ¬ frame.frameSeq.toNat * 8 + 8 ≤ 320 := by omega
    simp only [bufReceive, frameBufPut, hm, dataPut, hd, hs, ↓reduceIte]
    rfl

theorem bufReceive_middle (buf : StakeFrameBuf) {frame : CanFrameMetadata}
    (hm : frame.frameMark = .middle) (hs : frame.frameSeq.toNat < 40) :
    bufReceive buf frame = if buf.cnt.toNat < 64 then .ok (middleBuf buf frame, none)
      else .error (.random buf.cnt.toNat) := by
  have hd : frame.frameSeq.toNat * 8 + 8 ≤ 320 := by omega
  by_cases hc : buf.cnt.toNat < 64
  · simp only [bufReceive, frameBufPut, hm, dataPut, hd, randomPut, hc, ↓reduceIte]
    rfl
  · simp only [bufReceive, frameBufPut, hm, dataPut, hd, randomPut, hc, ↓reduceIte]
    rfl

theorem bufReceive_tail_rejected {buf : StakeFrameBuf} {frame : CanFrameMetadata}
    (hm : frame.frameMark = .tail) (hs : frame.frameSeq.toNat < 40) (hf : ¬ TailFits buf frame) :
    bufReceive buf frame = .ok (rejectedBuf buf frame, none) := by
  have hd : frame.frameSeq.toNat * 8 + 8 ≤ 320 := by omega
  have hc : (buf.cnt + 1).toNat ≠ frame.frameSeq.toNat ∨ buf.hasFrameHead ≠ 1 :=
    not_and_or.mp hf
  simp only [bufReceive, frameBufPut, hm, dataPut, hd, ↓reduceIte, bind, Except.bind]
  rw [if_pos hc]
  rfl

theorem bufReceive_tail_fits {buf : StakeFrameBuf} {frame : CanFrameMetadata}
    (hm : frame.frameMark = .tail) (hs : frame.frameSeq.toNat < 40) (hf : TailFits buf frame) :
    bufReceive buf frame =
      if buf.cnt.toNat < 64 then
        .ok (StakeFrameBuf.zero, if SlotsAgree buf then some (tailBlock buf frame) else none)
      else .error (.random buf.cnt.toNat) := by
  have hd : frame.frameSeq.toNat * 8 + 8 ≤ 320 := by omega
  have hc : ¬ ((buf.cnt + 1).toNat ≠ frame.frameSeq.toNat ∨ buf.hasFrameHead ≠ 1) := by
    rw [not_or, not_not, not_not]
    exact hf
  simp only [bufReceive, frameBufPut, hm, dataPut, hd, ↓reduceIte, bind, Except.bind]
  rw [if_neg hc]
  by_cases h64 : buf.cnt.toNat < 64
  · simp only [randomPut, h64, ↓reduceIte]
    have hz := mismatches_eq_zero_iff buf (UInt8.ofNat frame.random.toNat)
    by_cases ha : SlotsAgree buf
    · rw [if_neg (not_not.mpr (hz.mpr ha)), if_pos ha]
      rfl
    · rw [if_pos (fun h => ha (hz.mp h)), if_neg ha]
      rfl
  · simp only [randomPut, h64, ↓reduceIte]
    rfl

theorem bufReceive_single (buf : StakeFrameBuf) {frame : CanFrameMetadata}
    (hm : frame.frameMark = .single) :
    bufReceive buf frame = .ok ({ buf with len := 8 }, some frame.data.toList) := by
  simp only [bufReceive, frameBufPut, hm]
  rfl

theorem bufReceive_seq_fault {buf : StakeFrameBuf} {frame : CanFrameMetadata}
    (hm : frame.frameMark ≠ .single) (hs : ¬ frame.frameSeq.toNat < 40) :
    bufReceive buf frame = .error (.data (max 320 (frame.frameSeq.toNat * 8))) := by
  have hd : ¬ frame.frameSeq.toNat * 8 + 8 ≤ 320 := by omega
  cases h : frame.frameMark with
  | single => exact absurd h hm
  | head => rw [bufReceive_head buf h, if_neg hs]
  | middle =>
    simp only [bufReceive, frameBufPut, h, dataPut, hd, ↓reduceIte]
    rfl
  | tail =>
    simp only [bufReceive, frameBufPut, h, dataPut, hd, ↓reduceIte]
    rfl

/-- Everything a completed step can have done to the buffer of its stake. -/
theorem bufReceive_cases {buf buf' : StakeFrameBuf} {frame : CanFrameMetadata}
    {out : Option (List UInt8)} (h : bufReceive buf frame = .ok (buf', out)) :
    (frame.frameMark = .single ∧ buf' = { buf with len := 8 } ∧ out = some frame.data.toList) ∨
    (frame.frameSeq.toNat < 40 ∧
      ((frame.frameMark = .head ∧ buf' = headBuf frame ∧ out = none) ∨
       (frame.frameMark = .middle ∧ buf.cnt.toNat < 64 ∧ buf' = middleBuf buf frame ∧ out = none) ∨
       (frame.frameMark = .tail ∧ ¬ TailFits buf frame ∧ buf' = rejectedBuf buf frame ∧ out = none) ∨
       (frame.frameMark = .tail ∧ TailFits buf frame ∧ buf.cnt.toNat < 64 ∧
         buf' = StakeFrameBuf.zero ∧
         out = if SlotsAgree buf then some (tailBlock buf frame) else none))) := by
  by_cases hsingle : frame.frameMark = .single
  · rw [bufReceive_single buf hsingle] at h
    cases h
    exact Or.inl ⟨hsingle, rfl, rfl⟩
  · by_cases hs : frame.frameSeq.toNat < 40
    · refine Or.inr ⟨hs, ?_⟩
      cases hm : frame.frameMark with
      | single => exact absurd hm hsingle
      | head =>
        rw [bufReceive_head buf hm, if_pos hs] at h
        cases h
        exact Or.inl ⟨rfl, rfl, rfl⟩
      | middle =>
        rw [bufReceive_middle buf hm hs] at h
        split at h
        · cases h
          exact Or.inr (Or.inl ⟨rfl, ‹_›, rfl, rfl⟩)
        · cases h
      | tail =>
        by_cases hf : TailFits buf frame
        · rw [bufReceive_tail_fits hm hs hf] at h
          split at h
          · cases h
            exact Or.inr (Or.inr (Or.inr ⟨rfl, hf, ‹_›, rfl, rfl⟩))
          · cases h
        · rw [bufReceive_tail_rejected hm hs hf] at h
          cases h
          exact Or.inr (Or.inr (Or.inl ⟨rfl, hf, rfl, rfl⟩))
    · rw [bufReceive_seq_fault hsingle hs] at h
      cases h

theorem bufReceive_push {buf buf' : StakeFrameBuf} {frame : CanFrameMetadata}
    {block : List UInt8} (h : bufReceive buf frame = .ok (buf', some block))
    (hm : frame.frameMark ≠ .single) :
    frame.frameMark = .tail ∧ TailFits buf frame ∧ SlotsAgree buf ∧
      block = tailBlock buf frame := by
  rcases bufReceive_cases h with ⟨hs, -⟩ | ⟨-, ⟨-, -, hn⟩ | ⟨-, -, -, hn⟩ | ⟨-, -, -, hn⟩ |
    ⟨ht, hf, -, -, hn⟩⟩
  · exact absurd hs hm
  · cases hn
  · cases hn
  · cases hn
  · by_cases ha : SlotsAgree buf
    · rw [if_pos ha] at hn
      exact ⟨ht, hf, ha, Option.some.inj hn⟩
    · rw [if_neg ha] at hn
      cases hn

def StakeFrame.stake (pack : StakeFrame) (id : BitVec 7) : StakeFrameBuf :=
  have hid : id.toNat < 128 := id.isLt
  pack.frameBuf[id.toNat]

/-- A frame passes the checks before the switch. -/
def Admitted (canId : UInt8) (frame : CanFrameMetadata) : Prop :=
  frame.err ≠ 1 ∧ frame.sAddr.toNat ≠ canId.toNat

instance (canId : UInt8) (frame : CanFrameMetadata) : Decidable (Admitted canId frame) :=
  inferInstanceAs (Decidable (_ ∧ _))

/-- An admitted frame does to the buffer of its stake what the switch does, and
leaves the buffers of all other stakes alone. -/
theorem receive_admitted {canId : UInt8} (sn : UInt8) {pack : StakeFrame}
    {frame : CanFrameMetadata} (ha : Admitted canId frame) {buf : StakeFrameBuf} {out : Option (List UInt8)}
    (h : bufReceive (pack.stake frame.sAddr) frame = .ok (buf, out)) :
    ∃ pack', receive (.created canId sn pack) frame = .ok (.created canId sn pack', out) ∧
      pack'.stake frame.sAddr = buf ∧ ∀ id, id ≠ frame.sAddr → pack'.stake id = pack.stake id := by
  have hid : frame.sAddr.toNat < 128 := frame.sAddr.isLt
  have hguard : ¬ (frame.sAddr.toNat ≥ 128 ∨ frame.sAddr.toNat = canId.toNat) := by
    have := ha.2
    omega
  unfold bufReceive StakeFrame.stake at h
  cases hr : frameBufPut pack.frameBuf[frame.sAddr.toNat] frame with
  | error e => rw [hr] at h; cases h
  | ok r =>
    rw [hr] at h
    cases h
    refine ⟨{ pack with
        errRandom := pack.errRandom + UInt32.ofNat r.errRandom
        frameBuf := pack.frameBuf.set frame.sAddr.toNat r.buf }, ?_, ?_, ?_⟩
    · simp only [receive, stakeCmdBufPut, LibCtos.created, ha.1, hguard, hr, ↓reduceIte,
        ↓reduceDIte, Bool.true_eq_false]
      rfl
    · simp [StakeFrame.stake]
    · intro id hne
      have hneq : frame.sAddr.toNat ≠ id.toNat := fun he => hne (BitVec.eq_of_toNat_eq he.symm)
      simp only [StakeFrame.stake]
      exact Vector.getElem_set_ne _ _ hneq

theorem receive_not_admitted {canId : UInt8} (sn : UInt8) (pack : StakeFrame)
    {frame : CanFrameMetadata} (ha : ¬ Admitted canId frame) :
    ∃ pack', receive (.created canId sn pack) frame = .ok (.created canId sn pack', none) ∧
      pack'.frameBuf = pack.frameBuf := by
  by_cases he : frame.err = 1
  · refine ⟨{ pack with errStatistics := pack.errStatistics + 1 }, ?_, rfl⟩
    simp only [receive, stakeCmdBufPut, LibCtos.created, he, ↓reduceIte]
    rfl
  · have hguard : frame.sAddr.toNat ≥ 128 ∨ frame.sAddr.toNat = canId.toNat := by
      by_contra hne
      exact ha ⟨he, fun h => hne (Or.inr h)⟩
    refine ⟨pack, ?_, rfl⟩
    simp only [receive, stakeCmdBufPut, LibCtos.created, he, hguard, ↓reduceIte, ↓reduceDIte,
      Bool.true_eq_false]
    rfl

theorem receive_fault {canId sn : UInt8} {pack : StakeFrame} {frame : CanFrameMetadata}
    (ha : Admitted canId frame) {e : Fault}
    (h : bufReceive (pack.stake frame.sAddr) frame = .error e) :
    receive (.created canId sn pack) frame = .error e := by
  have hid : frame.sAddr.toNat < 128 := frame.sAddr.isLt
  have hguard : ¬ (frame.sAddr.toNat ≥ 128 ∨ frame.sAddr.toNat = canId.toNat) := by
    have := ha.2
    omega
  unfold bufReceive StakeFrame.stake at h
  cases hr : frameBufPut pack.frameBuf[frame.sAddr.toNat] frame with
  | ok r => rw [hr] at h; cases h
  | error e' =>
    rw [hr] at h
    cases h
    simp only [receive, stakeCmdBufPut, LibCtos.created, ha.1, hguard, hr, ↓reduceIte,
      ↓reduceDIte, Bool.true_eq_false]
    rfl

theorem receive_inv {canId sn : UInt8} {pack : StakeFrame} {frame : CanFrameMetadata}
    (ha : Admitted canId frame) {ctos' : LibCtos} {out : Option (List UInt8)}
    (h : receive (.created canId sn pack) frame = .ok (ctos', out)) :
    ∃ pack', ctos' = .created canId sn pack' ∧
      bufReceive (pack.stake frame.sAddr) frame = .ok (pack'.stake frame.sAddr, out) := by
  cases hf : bufReceive (pack.stake frame.sAddr) frame with
  | error e =>
    rw [receive_fault ha hf] at h
    cases h
  | ok r =>
    obtain ⟨buf, out'⟩ := r
    obtain ⟨pack', hstep, hbuf, -⟩ := receive_admitted sn ha hf
    rw [hstep] at h
    cases h
    exact ⟨pack', rfl, by rw [hbuf]⟩

/-- A step keeps the handle created, and a block it pushes is shorter than 256 bytes. -/
theorem receive_step {canId sn : UInt8} {pack : StakeFrame} {frame : CanFrameMetadata}
    {ctos' : LibCtos} {out : Option (List UInt8)}
    (h : receive (.created canId sn pack) frame = .ok (ctos', out)) :
    (∃ pack', ctos' = .created canId sn pack') ∧ ∀ block, out = some block → block.length < 256 := by
  by_cases ha : Admitted canId frame
  · obtain ⟨pack', rfl, hbuf⟩ := receive_inv ha h
    refine ⟨⟨pack', rfl⟩, ?_⟩
    intro block hout
    subst hout
    by_cases hs : frame.frameMark = .single
    · rw [bufReceive_single _ hs] at hbuf
      have hdata := (Prod.mk.inj (Except.ok.inj hbuf)).2
      rw [← Option.some.inj hdata]
      simp
    · obtain ⟨-, -, -, rfl⟩ := bufReceive_push hbuf hs
      have hlt := ((pack.stake frame.sAddr).len + 8).toNat_lt
      simp only [tailBlock, List.length_take]
      omega
  · obtain ⟨pack', hstep, -⟩ := receive_not_admitted sn pack ha
    rw [hstep] at h
    cases h
    exact ⟨⟨pack', rfl⟩, by intro block hb; cases hb⟩

theorem run_created {canId sn : UInt8} {pack : StakeFrame} {frames : List CanFrameMetadata}
    {ctos' : LibCtos} {outs : List (Option (List UInt8))}
    (h : run receive (.created canId sn pack) frames = .ok (ctos', outs)) :
    ∃ pack', ctos' = .created canId sn pack' :=
  run_invariant (fun u => ∃ pack', u = .created canId sn pack')
    (by rintro _ f s' b ⟨pack₁, rfl⟩ hstep; exact (receive_step hstep).1) ⟨pack, rfl⟩ h

theorem run_receive {canId : UInt8} (sn : UInt8) {pack : StakeFrame} {id : BitVec 7}
    {frames : List CanFrameMetadata} (ha : ∀ f ∈ frames, Admitted canId f ∧ f.sAddr = id)
    {buf : StakeFrameBuf} {outs : List (Option (List UInt8))}
    (h : run bufReceive (pack.stake id) frames = .ok (buf, outs)) :
    ∃ pack', run receive (.created canId sn pack) frames = .ok (.created canId sn pack', outs) ∧
      pack'.stake id = buf ∧ ∀ id', id' ≠ id → pack'.stake id' = pack.stake id' := by
  induction frames generalizing pack outs with
  | nil =>
    obtain ⟨rfl, rfl⟩ := run_nil_iff.mp h
    exact ⟨pack, rfl, rfl, fun _ _ => rfl⟩
  | cons f frames ih =>
    obtain ⟨buf₁, out, outs', hf, hrest, rfl⟩ := run_cons_iff.mp h
    obtain ⟨hadm, rfl⟩ := ha f List.mem_cons_self
    obtain ⟨pack₁, hstep, hbuf, hother⟩ := receive_admitted sn hadm hf
    rw [← hbuf] at hrest
    obtain ⟨pack', hrun, hlast, hothers⟩ :=
      ih (fun g hg => ha g (List.mem_cons_of_mem _ hg)) hrest
    refine ⟨pack', run_cons_ok hstep hrun, hlast, ?_⟩
    intro id' hne
    rw [hothers id' hne, hother id' hne]

theorem run_receive_inv {canId sn : UInt8} {pack : StakeFrame} {id : BitVec 7}
    {frames : List CanFrameMetadata} (ha : ∀ f ∈ frames, Admitted canId f ∧ f.sAddr = id)
    {ctos' : LibCtos} {outs : List (Option (List UInt8))}
    (h : run receive (.created canId sn pack) frames = .ok (ctos', outs)) :
    ∃ pack', ctos' = .created canId sn pack' ∧
      run bufReceive (pack.stake id) frames = .ok (pack'.stake id, outs) := by
  induction frames generalizing pack outs with
  | nil =>
    obtain ⟨rfl, rfl⟩ := run_nil_iff.mp h
    exact ⟨pack, rfl, rfl⟩
  | cons f frames ih =>
    obtain ⟨hadm, rfl⟩ := ha f List.mem_cons_self
    obtain ⟨s', out, outs', hstep, hrest, rfl⟩ := run_cons_iff.mp h
    obtain ⟨pack₁, rfl, hf⟩ := receive_inv hadm hstep
    obtain ⟨pack', rfl, hrun⟩ := ih (fun g hg => ha g (List.mem_cons_of_mem _ hg)) hrest
    exact ⟨pack', rfl, run_cons_ok hf hrun⟩

theorem run_receive_refused {canId : UInt8} (sn : UInt8) (pack : StakeFrame)
    {frames : List CanFrameMetadata} (ha : ∀ f ∈ frames, ¬ Admitted canId f) :
    ∃ pack', run receive (.created canId sn pack) frames =
      .ok (.created canId sn pack', frames.map fun _ => none) := by
  induction frames generalizing pack with
  | nil => exact ⟨pack, rfl⟩
  | cons f frames ih =>
    obtain ⟨pack₁, hstep, -⟩ := receive_not_admitted sn pack
      (ha f List.mem_cons_self)
    obtain ⟨pack', hrun⟩ := ih pack₁ fun g hg => ha g (List.mem_cons_of_mem _ hg)
    exact ⟨pack', run_cons_ok hstep hrun⟩

/-- The blocks handed to `lib_ringbuffer_putforce` during a run, in order. -/
def pushes (outs : List (Option (List UInt8))) : List (List UInt8) := outs.filterMap id

/-- Fed to the receiver one by one, the frames push these blocks and nothing else. -/
def Reassembled (ctos : LibCtos) (frames : List CanFrameMetadata) (blocks : List (List UInt8)) :
    Prop :=
  ∃ ctos' outs, run receive ctos frames = .ok (ctos', outs) ∧ pushes outs = blocks

theorem reassembled_iff {ctos ctos' : LibCtos} {frames : List CanFrameMetadata}
    {outs : List (Option (List UInt8))} (h : run receive ctos frames = .ok (ctos', outs))
    {blocks : List (List UInt8)} : Reassembled ctos frames blocks ↔ blocks = pushes outs := by
  constructor
  · intro hre
    obtain ⟨c, o, hr, rfl⟩ := hre
    rw [h] at hr
    cases hr
    rfl
  · intro hblocks
    subst hblocks
    exact ⟨ctos', outs, h, rfl⟩

end BackupSoftware.Can
