import BackupSoftware.Can.Receiver

/-!
# Where reassembly writes

The write position in `data` comes from the six-bit frame number and the one in
`random` from a counter that only some paths reset. From cleared buffers the counter
is that of the frames heard, so that the frames alone say whether every write lies
inside its array.
-/

namespace BackupSoftware.Can

open BackupSoftware.Library.Bytes BackupSoftware.Library.Trace

/-- The frame number addresses `data`, and the counter addresses `random` when the
step stores the random code: at a middle frame, and at a tail that fits. -/
def InBounds (buf : StakeFrameBuf) (frame : CanFrameMetadata) : Prop :=
  frame.frameMark = .single ∨
    (frame.frameSeq.toNat < 40 ∧ (frame.frameMark = .middle → buf.cnt.toNat < 64) ∧
      (frame.frameMark = .tail → TailFits buf frame → buf.cnt.toNat < 64))

theorem bufReceive_completes_iff (buf : StakeFrameBuf) (frame : CanFrameMetadata) :
    (∃ r, bufReceive buf frame = .ok r) ↔ InBounds buf frame := by
  constructor
  · intro hdone
    obtain ⟨⟨buf', out⟩, h⟩ := hdone
    rcases bufReceive_cases h with ⟨hs, -⟩ | ⟨hseq, ⟨hm, -⟩ | ⟨hm, hc, -⟩ | ⟨hm, hf, -⟩ |
      ⟨hm, -, hc, -⟩⟩
    · exact Or.inl hs
    · exact Or.inr ⟨hseq, fun h => absurd (hm.symm.trans h) (by decide),
        fun h => absurd (hm.symm.trans h) (by decide)⟩
    · exact Or.inr ⟨hseq, fun _ => hc, fun h => absurd (hm.symm.trans h) (by decide)⟩
    · exact Or.inr ⟨hseq, fun h => absurd (hm.symm.trans h) (by decide), fun _ h => absurd h hf⟩
    · exact Or.inr ⟨hseq, fun h => absurd (hm.symm.trans h) (by decide), fun _ _ => hc⟩
  · intro hin
    rcases hin with hs | ⟨hseq, hmid, htail⟩
    · exact ⟨_, bufReceive_single _ hs⟩
    · cases hm : frame.frameMark with
      | single => exact ⟨_, bufReceive_single _ hm⟩
      | head => exact ⟨_, (bufReceive_head _ hm).trans (if_pos hseq)⟩
      | middle => exact ⟨_, (bufReceive_middle _ hm hseq).trans (if_pos (hmid hm))⟩
      | tail =>
        by_cases hf : TailFits buf frame
        · exact ⟨_, (bufReceive_tail_fits hm hseq hf).trans (if_pos (htail hm hf))⟩
        · exact ⟨_, bufReceive_tail_rejected hm hseq hf⟩

theorem receive_completes_iff (canId sn : UInt8) (pack : StakeFrame) (frame : CanFrameMetadata) :
    (∃ r, receive (.created canId sn pack) frame = .ok r) ↔
      (Admitted canId frame → InBounds (pack.stake frame.sAddr) frame) := by
  by_cases ha : Admitted canId frame
  · rw [← bufReceive_completes_iff]
    constructor
    · intro hdone _
      obtain ⟨⟨ctos', out⟩, h⟩ := hdone
      obtain ⟨pack', -, hbuf⟩ := receive_inv ha h
      exact ⟨_, hbuf⟩
    · intro h
      obtain ⟨⟨buf, out⟩, hbuf⟩ := h ha
      obtain ⟨pack', hstep, -⟩ := receive_admitted sn ha hbuf
      exact ⟨_, hstep⟩
  · obtain ⟨pack', hstep, -⟩ := receive_not_admitted sn pack ha
    exact ⟨fun _ h => absurd h ha, fun _ => ⟨_, hstep⟩⟩

/-- What the frames of a stake say about its buffer: whether a head is pending, and how many middle
and tail frames have come since the last head or the last tail that was accepted. -/
structure Heard where
  pending : Bool
  count : Nat

/-- The tail closes the pending command: its number is the count in a byte, itself included. -/
def Heard.Closes (h : Heard) (frame : CanFrameMetadata) : Prop :=
  h.pending = true ∧ (h.count + 1) % 256 = frame.frameSeq.toNat

instance (h : Heard) (frame : CanFrameMetadata) : Decidable (h.Closes frame) :=
  inferInstanceAs (Decidable (_ ∧ _))

def Heard.next (h : Heard) (frame : CanFrameMetadata) : Heard :=
  match frame.frameMark with
  | .single => h
  | .head => ⟨true, 0⟩
  | .middle => ⟨h.pending, h.count + 1⟩
  | .tail => if h.Closes frame then ⟨false, 0⟩ else ⟨h.pending, h.count + 1⟩

def hear (canId : UInt8) (id : BitVec 7) (h : Heard) (frame : CanFrameMetadata) : Heard :=
  if Admitted canId frame ∧ frame.sAddr = id then h.next frame else h

def heard (canId : UInt8) (id : BitVec 7) (frames : List CanFrameMetadata) : Heard :=
  frames.foldl (hear canId id) ⟨false, 0⟩

/-- A single frame, or one with a number below 40 that is no middle frame behind 64 frames, up to
multiples of 256, and no tail with number 0 that closes a command. -/
def Heard.Fits (h : Heard) (frame : CanFrameMetadata) : Prop :=
  frame.frameMark = .single ∨
    (frame.frameSeq.toNat < 40 ∧ (frame.frameMark = .middle → h.count % 256 < 64) ∧
      (frame.frameMark = .tail → h.Closes frame → 0 < frame.frameSeq.toNat))

/-- Every frame that passes the checks fits what was heard of its stake before it. -/
def FramesFit (canId : UInt8) (frames : List CanFrameMetadata) : Prop :=
  ∀ pre frame post, frames = pre ++ frame :: post → Admitted canId frame →
    (heard canId frame.sAddr pre).Fits frame

/-- The buffer is as the frames of its stake say. -/
structure Tracks (buf : StakeFrameBuf) (h : Heard) : Prop where
  cnt : buf.cnt.toNat = h.count % 256
  head : buf.hasFrameHead = 1 ↔ h.pending = true

theorem tracks_zero : Tracks StakeFrameBuf.zero ⟨false, 0⟩ := ⟨rfl, by decide⟩

theorem cnt_succ {buf : StakeFrameBuf} {h : Heard} (ht : Tracks buf h) :
    (buf.cnt + 1).toNat = (h.count + 1) % 256 := by
  rw [UInt8.toNat_add, ht.cnt, UInt8.toNat_one]
  omega

theorem tailFits_iff {buf : StakeFrameBuf} {h : Heard} (ht : Tracks buf h)
    (frame : CanFrameMetadata) : TailFits buf frame ↔ h.Closes frame := by
  rw [TailFits, cnt_succ ht, ht.head, and_comm]
  rfl

theorem inBounds_iff {buf : StakeFrameBuf} {h : Heard} (ht : Tracks buf h)
    (frame : CanFrameMetadata) : InBounds buf frame ↔ h.Fits frame := by
  refine or_congr Iff.rfl (and_congr_right fun hseq => and_congr ?_ ?_)
  · rw [ht.cnt]
  · refine imp_congr_right fun _ => ?_
    rw [tailFits_iff ht, ht.cnt]
    refine imp_congr_right fun hcloses => ?_
    have hnumber := hcloses.2
    omega

theorem tracks_next {buf buf' : StakeFrameBuf} {h : Heard} (ht : Tracks buf h)
    {frame : CanFrameMetadata} {out : Option (List UInt8)}
    (hstep : bufReceive buf frame = .ok (buf', out)) : Tracks buf' (h.next frame) := by
  unfold Heard.next
  rcases bufReceive_cases hstep with ⟨hm, hb, -⟩ | ⟨-, ⟨hm, hb, -⟩ | ⟨hm, -, hb, -⟩ |
    ⟨hm, hf, hb, -⟩ | ⟨hm, hf, -, hb, -⟩⟩
  · rw [hm, hb]
    exact ⟨ht.cnt, ht.head⟩
  · rw [hm, hb]
    exact ⟨rfl, by simp [headBuf]⟩
  · rw [hm, hb]
    exact ⟨cnt_succ ht, ht.head⟩
  · rw [tailFits_iff ht] at hf
    simp only [hm, hb, if_neg hf]
    exact ⟨cnt_succ ht, ht.head⟩
  · rw [tailFits_iff ht] at hf
    simp only [hm, hb, if_pos hf]
    exact tracks_zero

theorem tracks_step {canId sn : UInt8} {pack pack' : StakeFrame} {frame : CanFrameMetadata}
    {out : Option (List UInt8)}
    (hstep : receive (.created canId sn pack) frame = .ok (.created canId sn pack', out))
    {id : BitVec 7} {h : Heard} (ht : Tracks (pack.stake id) h) :
    Tracks (pack'.stake id) (hear canId id h frame) := by
  unfold hear
  by_cases ha : Admitted canId frame
  · obtain ⟨pack₁, hpack, hbuf⟩ := receive_inv ha hstep
    cases hpack
    by_cases hid : frame.sAddr = id
    · subst hid
      rw [if_pos ⟨ha, rfl⟩]
      exact tracks_next ht hbuf
    · rw [if_neg fun hc => hid hc.2]
      obtain ⟨pack₂, hstep', -, hother⟩ := receive_admitted sn ha hbuf
      rw [hstep] at hstep'
      cases hstep'
      rw [hother id fun he => hid he.symm]
      exact ht
  · rw [if_neg fun hc => ha hc.1]
    obtain ⟨pack₂, hstep', hsame⟩ := receive_not_admitted sn pack ha
    rw [hstep] at hstep'
    cases hstep'
    unfold StakeFrame.stake at ht ⊢
    simp only [hsame]
    exact ht

/-- Along every run from cleared buffers, the buffer of each stake is as its frames say. -/
theorem tracks_run {canId sn : UInt8} {pack : StakeFrame} {frames : List CanFrameMetadata}
    {outs : List (Option (List UInt8))}
    (hrun : run receive (.created canId sn .zero) frames = .ok (.created canId sn pack, outs))
    (id : BitVec 7) : Tracks (pack.stake id) (heard canId id frames) := by
  have hzero : StakeFrame.zero.stake id = StakeFrameBuf.zero := by
    simp [StakeFrame.stake, StakeFrame.zero]
  have hstart : ∃ pack, LibCtos.created canId sn .zero = .created canId sn pack ∧
      Tracks (pack.stake id) (heard canId id []) := by
    refine ⟨.zero, rfl, ?_⟩
    rw [hzero]
    exact tracks_zero
  have hend := run_invariant_history
    (fun pre s => ∃ pack, s = .created canId sn pack ∧ Tracks (pack.stake id) (heard canId id pre))
    (by
      intro pre s frame s' out hs hstep
      obtain ⟨pack, rfl, ht⟩ := hs
      obtain ⟨⟨pack', rfl⟩, -⟩ := receive_step hstep
      refine ⟨pack', rfl, ?_⟩
      rw [heard, List.foldl_append]
      exact tracks_step hstep ht) hstart hrun
  obtain ⟨pack', hpack, ht⟩ := hend
  cases hpack
  exact ht

/-- From cleared buffers a run keeps every write inside its array, and every length handed to the
ring buffer at most STAKE_BUF_MAX, exactly when every frame fits the frames before it. -/
theorem reassembly_in_bounds_iff (canId sn : UInt8) (frames : List CanFrameMetadata) :
    (∃ ctos' outs, run receive (.created canId sn .zero) frames = .ok (ctos', outs) ∧
      ∀ block ∈ pushes outs, block.length ≤ 320) ↔ FramesFit canId frames := by
  constructor
  · intro hdone pre frame post hsplit ha
    obtain ⟨ctos', outs, hrun, -⟩ := hdone
    rw [hsplit] at hrun
    obtain ⟨u, outs₁, outs₂, hpre, hrest, -⟩ := run_append_iff.mp hrun
    obtain ⟨pack, rfl⟩ := run_created hpre
    obtain ⟨s', out, -, hstep, -, -⟩ := run_cons_iff.mp hrest
    rw [← inBounds_iff (tracks_run hpre frame.sAddr)]
    exact (receive_completes_iff canId sn pack frame).mp ⟨_, hstep⟩ ha
  · intro hfit
    obtain ⟨⟨ctos', outs⟩, hrun⟩ : ∃ r, run receive (.created canId sn .zero) frames = .ok r := by
      rw [run_completes_iff]
      intro pre frame post u outs hsplit hpre
      obtain ⟨pack, rfl⟩ := run_created hpre
      refine (receive_completes_iff canId sn pack frame).mpr fun ha => ?_
      rw [inBounds_iff (tracks_run hpre frame.sAddr)]
      exact hfit pre frame post hsplit ha
    refine ⟨ctos', outs, hrun, ?_⟩
    intro block hblock
    obtain ⟨o, ho, hob⟩ := List.mem_filterMap.mp hblock
    obtain ⟨pre, frame, post, u, u', outs', -, hpre, hstep⟩ := run_output hrun ho
    obtain ⟨pack', rfl⟩ := run_created hpre
    have hlt := (receive_step hstep).2 block hob
    omega

def stakeOneFrame (mark : FrameMark) (seq : BitVec 6) : CanFrameMetadata :=
  ⟨3, 1, mark, seq, 0, 0, 1, 0, 0, 1, 8, Vector.replicate 8 0⟩

/-- A head frame numbered 63 writes behind `data`, and the 65th middle frame after
the start behind `random`. -/
theorem reassembly_out_of_bounds :
    (¬ ∃ r, run receive (idleHandle 3) [stakeOneFrame .head 63] = .ok r) ∧
    ¬ ∃ r, run receive (idleHandle 3) (List.replicate 65 (stakeOneFrame .middle 1)) = .ok r := by
  have hfaults : ∀ frames : List CanFrameMetadata,
      (run receive (idleHandle 3) frames).toOption.isNone →
      ¬ ∃ r, run receive (idleHandle 3) frames = .ok r := by
    intro frames hnone hdone
    obtain ⟨r, hr⟩ := hdone
    rw [hr] at hnone
    cases hnone
  exact ⟨hfaults _ (by decide), hfaults _ (by decide)⟩

end BackupSoftware.Can
