import BackupSoftware.Can.Reassembly
import Mathlib.Data.List.TakeDrop

/-!
# Single frames between the frames of a message

A single frame is pushed at once, but it also sets the length counter of its stake to
eight. The frames of a message that arrived before it stay in the data buffer and are
no longer counted, so the tail pushes a block that is too short. Only behind the head,
when the counter is eight anyway, does a single frame do no harm.
-/

namespace BackupSoftware.Can

open BackupSoftware.Library.Bytes BackupSoftware.Library.Trace

/-- A frame of a message of several frames. -/
def IsPart (frame : CanFrameMetadata) : Bool := frame.frameMark ≠ .single

/-- What a frame has to push: a single frame its data, and the tail of a message `block`. -/
def expectedPush (block : List UInt8) (frame : CanFrameMetadata) : Option (List UInt8) :=
  match frame.frameMark with
  | .single => some frame.data.toList
  | .tail => some block
  | _ => none

/-- Every frame pushes what it has to push at the moment it arrives. -/
def Undisturbed (ctos : LibCtos) (frames : List CanFrameMetadata) (block : List UInt8) : Prop :=
  ∃ ctos', run receive ctos frames = .ok (ctos', frames.map (expectedPush block))

/-- No single frame arrives when at least two, but not all of the `size` frames of the message
have arrived; `seen` of them arrived before these frames. -/
def NoLateSingle (size seen : Nat) (frames : List CanFrameMetadata) : Prop :=
  ∀ pre f post, frames = pre ++ f :: post → f.frameMark = .single →
    seen + (pre.filter IsPart).length < 2 ∨ size ≤ seen + (pre.filter IsPart).length

theorem noLateSingle_cons_single {size seen : Nat} {f : CanFrameMetadata}
    {frames : List CanFrameMetadata} (hf : f.frameMark = .single) :
    NoLateSingle size seen (f :: frames) ↔
      (seen < 2 ∨ size ≤ seen) ∧ NoLateSingle size seen frames := by
  have hpart : IsPart f = false := by simp [IsPart, hf]
  constructor
  · intro h
    refine ⟨h [] f frames rfl hf, ?_⟩
    intro pre g post hsplit hg
    have hcons := h (f :: pre) g post (by rw [hsplit]; rfl) hg
    rwa [List.filter_cons_of_neg (by simp [hpart])] at hcons
  · intro h' pre g post hsplit hg
    obtain ⟨hfirst, hrest⟩ := h'
    cases pre with
    | nil => exact hfirst
    | cons x pre =>
      cases hsplit
      rw [List.filter_cons_of_neg (by simp [hpart])]
      exact hrest pre g post rfl hg

theorem noLateSingle_cons_part {size seen : Nat} {f : CanFrameMetadata}
    {frames : List CanFrameMetadata} (hf : f.frameMark ≠ .single) :
    NoLateSingle size seen (f :: frames) ↔ NoLateSingle size (seen + 1) frames := by
  have hpart : IsPart f = true := by simp [IsPart, hf]
  constructor
  · intro h pre g post hsplit hg
    have hcons := h (f :: pre) g post (by rw [hsplit]; rfl) hg
    rw [List.filter_cons_of_pos hpart, List.length_cons] at hcons
    omega
  · intro h pre g post hsplit hg
    cases pre with
    | nil =>
      cases hsplit
      exact absurd hg hf
    | cons x pre =>
      cases hsplit
      have hrest := h pre g post rfl hg
      rw [List.filter_cons_of_pos hpart, List.length_cons]
      omega

theorem noLateSingle_of_all_seen {size seen : Nat} (h : size ≤ seen)
    (frames : List CanFrameMetadata) : NoLateSingle size seen frames := by
  intro pre f post _ _
  exact Or.inr (by omega)

/-- The first `j` frames of the message have arrived, and the length counter is `len`. -/
structure Counted (m : Message) (j len : Nat) (buf : StakeFrameBuf) : Prop where
  progress : Progress m j { buf with len := UInt8.ofNat (8 * j) }
  len : buf.len.toNat = len

theorem counted_head (m : Message) : Counted m 1 8 (headBuf (m.frame 0)) :=
  ⟨progress_head m, rfl⟩

theorem counted_single {m : Message} {j len : Nat} {buf : StakeFrameBuf} (h : Counted m j len buf) :
    Counted m j 8 { buf with len := 8 } :=
  ⟨h.progress, rfl⟩

theorem counted_middle {m : Message} {j len : Nat} {buf : StakeFrameBuf} (h1 : 1 ≤ j) (hj : j < 31)
    (hlen : len ≤ 8 * j) (h : Counted m j len buf) :
    Counted m (j + 1) (len + 8) (middleBuf buf (m.frame j)) where
  progress := by
    have hp := progress_middle h1 (by omega) h.progress
    have heq : UInt8.ofNat (8 * j) + 8 = UInt8.ofNat (8 * (j + 1)) := by
      rw [Nat.mul_add, UInt8.ofNat_add]
      rfl
    simp only [middleBuf, heq] at hp ⊢
    exact hp
  len := by
    have hl := h.len
    simp only [middleBuf, byte_add_eight]
    omega

theorem counted_tail {m : Message} {len : Nat} {buf : StakeFrameBuf} (h2 : 2 ≤ m.size)
    (h31 : m.size ≤ 31) (hlen : len ≤ 8 * (m.size - 1)) (h : Counted m (m.size - 1) len buf) :
    bufReceive buf (m.frame (m.size - 1)) =
      .ok (StakeFrameBuf.zero, some (m.block.take (len + 8))) := by
  obtain ⟨hf, ha⟩ := progress_tail_fits h2 (by omega) h.progress
  have hfits : TailFits buf (m.frame (m.size - 1)) := hf
  have hagree : SlotsAgree buf := ha
  have hcnt : buf.cnt.toNat = m.size - 1 - 1 := h.progress.cnt
  have hblock := progress_tail_block h2 (by omega) h.progress
  rw [block_take_whole h31] at hblock
  have hwhole : (UInt8.ofNat (8 * (m.size - 1)) + 8).toNat = 8 * m.size := by
    rw [byte_add_eight, UInt8.toNat_ofNat']
    omega
  have hshort : (buf.len + 8).toNat = len + 8 := by
    have hl := h.len
    rw [byte_add_eight]
    omega
  have hcut : tailBlock buf (m.frame (m.size - 1)) = m.block.take (len + 8) := by
    rw [← hblock, tailBlock, tailBlock, hshort, hwhole, List.take_take, Nat.min_eq_left (by omega)]
  rw [bufReceive_tail_fits (m.frame_tail h2) (by rw [m.frame_seq (by omega)]; omega) hfits,
    if_pos (by omega), if_pos hagree, hcut]

theorem run_singles {frames : List CanFrameMetadata} (hs : frames.filter IsPart = [])
    (block : List UInt8) (buf : StakeFrameBuf) :
    ∃ buf', run bufReceive buf frames = .ok (buf', frames.map (expectedPush block)) := by
  induction frames generalizing buf with
  | nil => exact ⟨buf, rfl⟩
  | cons f frames ih =>
    have hf : f.frameMark = .single := by
      have hnot := List.filter_eq_nil_iff.mp hs f List.mem_cons_self
      simpa [IsPart] using hnot
    have hrest : frames.filter IsPart = [] := by
      rwa [List.filter_cons_of_neg (by simp [IsPart, hf])] at hs
    obtain ⟨buf', hrun⟩ := ih hrest { buf with len := 8 }
    refine ⟨buf', ?_⟩
    have hpush : expectedPush block f = some f.data.toList := by simp only [expectedPush, hf]
    rw [List.map_cons, hpush]
    exact run_cons_ok (bufReceive_single buf hf) hrun

theorem run_cons_expected {buf buf₁ : StakeFrameBuf} {f : CanFrameMetadata}
    {frames : List CanFrameMetadata} {block : List UInt8} {P : Prop}
    (hstep : bufReceive buf f = .ok (buf₁, expectedPush block f))
    (h : ∃ buf' outs, run bufReceive buf₁ frames = .ok (buf', outs) ∧
      (outs = frames.map (expectedPush block) ↔ P)) :
    ∃ buf' outs, run bufReceive buf (f :: frames) = .ok (buf', outs) ∧
      (outs = (f :: frames).map (expectedPush block) ↔ P) := by
  obtain ⟨buf', outs, hrun, hiff⟩ := h
  refine ⟨buf', _, run_cons_ok hstep hrun, ?_⟩
  rw [List.map_cons, List.cons.injEq, ← hiff]
  exact and_iff_right rfl

theorem part_eq_frame {m : Message} {j : Nat} (hj : j < m.size) {f : CanFrameMetadata}
    {frames : List CanFrameMetadata} (hf : f.frameMark ≠ .single)
    (hparts : (f :: frames).filter IsPart = (List.range' j (m.size - j)).map m.frame) :
    f = m.frame j ∧
      frames.filter IsPart = (List.range' (j + 1) (m.size - (j + 1))).map m.frame := by
  obtain ⟨k, hk⟩ : ∃ k, m.size - j = k + 1 := ⟨m.size - j - 1, by omega⟩
  have hk' : m.size - (j + 1) = k := by omega
  rw [List.filter_cons_of_pos (by simp [IsPart, hf]), hk, List.range'_succ, List.map_cons] at hparts
  obtain ⟨hfirst, hrest⟩ := List.cons.inj hparts
  exact ⟨hfirst, by rw [hk', hrest]⟩

/-- From the moment that `j` frames have arrived: all outputs are as they have to be exactly
if all of these frames are counted and no single frame comes from now on. -/
theorem run_counted {m : Message} (h2 : 2 ≤ m.size) (h31 : m.size ≤ 31)
    {frames : List CanFrameMetadata} {j len : Nat} (h1 : 1 ≤ j) (hj : j < m.size)
    (hparts : frames.filter IsPart = (List.range' j (m.size - j)).map m.frame) (h8 : 8 ≤ len)
    (hlen : len ≤ 8 * j) {buf : StakeFrameBuf} (h : Counted m j len buf) :
    ∃ buf' outs, run bufReceive buf frames = .ok (buf', outs) ∧
      (outs = frames.map (expectedPush m.block) ↔ len = 8 * j ∧ NoLateSingle m.size j frames) := by
  induction frames generalizing j len buf with
  | nil =>
    obtain ⟨k, hk⟩ : ∃ k, m.size - j = k + 1 := ⟨m.size - j - 1, by omega⟩
    rw [hk, List.range'_succ] at hparts
    cases hparts
  | cons f frames ih =>
    by_cases hf : f.frameMark = .single
    · have hrest : frames.filter IsPart = (List.range' j (m.size - j)).map m.frame := by
        rwa [List.filter_cons_of_neg (by simp [IsPart, hf])] at hparts
      have hpush : expectedPush m.block f = some f.data.toList := by simp only [expectedPush, hf]
      have hih := ih h1 hj hrest (Nat.le_refl 8) (by omega) (counted_single h)
      have hiff : len = 8 * j ∧ NoLateSingle m.size j (f :: frames) ↔
          8 = 8 * j ∧ NoLateSingle m.size j frames := by
        rw [noLateSingle_cons_single hf]
        constructor
        · intro h'
          obtain ⟨-, hearly, hlate⟩ := h'
          exact ⟨by omega, hlate⟩
        · intro h'
          obtain ⟨hone, hlate⟩ := h'
          exact ⟨by omega, Or.inl (by omega), hlate⟩
      rw [hiff]
      exact run_cons_expected (by rw [hpush]; exact bufReceive_single buf hf) hih
    · obtain ⟨rfl, hrest⟩ := part_eq_frame hj hf hparts
      rw [noLateSingle_cons_part hf]
      by_cases hlast : j = m.size - 1
      · subst hlast
        have hdone : frames.filter IsPart = [] := by
          rw [hrest]
          simp [show m.size - (m.size - 1 + 1) = 0 by omega]
        obtain ⟨buf', hrun⟩ := run_singles hdone m.block StakeFrameBuf.zero
        refine ⟨buf', _, run_cons_ok (counted_tail h2 h31 hlen h) hrun, ?_⟩
        have hpush : expectedPush m.block (m.frame (m.size - 1)) = some m.block := by
          simp only [expectedPush, m.frame_tail h2]
        have hall := noLateSingle_of_all_seen (show m.size ≤ m.size - 1 + 1 by omega) frames
        rw [List.map_cons, hpush, List.cons.injEq, and_iff_left rfl, and_iff_left hall,
          Option.some.injEq, List.take_eq_self_iff, m.length_block]
        omega
      · have hmid := m.frame_middle (i := j) (by omega) (by omega)
        have hpush : expectedPush m.block (m.frame j) = none := by
          simp only [expectedPush, hmid]
        have hcnt : buf.cnt.toNat = j - 1 := h.progress.cnt
        have hstep := bufReceive_middle buf hmid (by rw [m.frame_seq (by omega)]; omega)
        rw [if_pos (by omega)] at hstep
        have hih := ih (by omega) (by omega) hrest (by omega) (by omega)
          (counted_middle h1 (by omega) hlen h)
        have hiff : len = 8 * j ∧ NoLateSingle m.size (j + 1) frames ↔
            len + 8 = 8 * (j + 1) ∧ NoLateSingle m.size (j + 1) frames :=
          and_congr_left fun _ => by omega
        rw [hiff]
        exact run_cons_expected (by rw [hpush]; exact hstep) hih

theorem run_inserted {m : Message} (h2 : 2 ≤ m.size) (h31 : m.size ≤ 31)
    {frames : List CanFrameMetadata} (hparts : frames.filter IsPart = m.frames)
    (buf : StakeFrameBuf) :
    ∃ buf' outs, run bufReceive buf frames = .ok (buf', outs) ∧
      (outs = frames.map (expectedPush m.block) ↔ NoLateSingle m.size 0 frames) := by
  have hframes : m.frames = (List.range' 0 (m.size - 0)).map m.frame := by
    rw [Message.frames, List.range_eq_range', Nat.sub_zero]
  rw [hframes] at hparts
  induction frames generalizing buf with
  | nil =>
    obtain ⟨k, hk⟩ : ∃ k, m.size - 0 = k + 1 := ⟨m.size - 1, by omega⟩
    rw [hk, List.range'_succ] at hparts
    cases hparts
  | cons f frames ih =>
    by_cases hf : f.frameMark = .single
    · have hrest : frames.filter IsPart = (List.range' 0 (m.size - 0)).map m.frame := by
        rwa [List.filter_cons_of_neg (by simp [IsPart, hf])] at hparts
      have hpush : expectedPush m.block f = some f.data.toList := by simp only [expectedPush, hf]
      rw [noLateSingle_cons_single hf, and_iff_right (Or.inl (by decide))]
      exact run_cons_expected (by rw [hpush]; exact bufReceive_single buf hf)
        (ih hrest { buf with len := 8 })
    · obtain ⟨rfl, hrest⟩ := part_eq_frame (by omega) hf hparts
      have hpush : expectedPush m.block (m.frame 0) = none := by
        simp only [expectedPush, m.frame_head]
      have hstep := bufReceive_head buf m.frame_head
      rw [m.frame_seq (by omega), if_pos (by decide)] at hstep
      have hrun := run_counted h2 h31 (Nat.le_refl 1) (by omega) hrest (Nat.le_refl 8) (by omega)
        (counted_head m)
      rw [and_iff_right (by omega)] at hrun
      rw [noLateSingle_cons_part hf]
      exact run_cons_expected (by rw [hpush]; exact hstep) hrun

/-- What a receiver, in whatever state, makes of a message of 2 to 31 frames and of single
frames of its stake that arrive before, between and behind them. -/
theorem undisturbed_message_iff (m : Message) (h2 : 2 ≤ m.size) (h31 : m.size ≤ 31)
    {canId : UInt8} (hid : m.ctos.canId.toNat % 128 ≠ canId.toNat) (sn : UInt8)
    (pack : StakeFrame) {frames : List CanFrameMetadata}
    (hparts : frames.filter IsPart = m.frames)
    (hsingles : ∀ f ∈ frames, f.frameMark = .single →
      Admitted canId f ∧ f.sAddr = BitVec.ofNat 7 m.ctos.canId.toNat) :
    Undisturbed (.created canId sn pack) frames m.block ↔ NoLateSingle m.size 0 frames := by
  have hall : ∀ f ∈ frames, Admitted canId f ∧ f.sAddr = BitVec.ofNat 7 m.ctos.canId.toNat := by
    intro f hf
    by_cases hs : f.frameMark = .single
    · exact hsingles f hf hs
    · have hmem : f ∈ frames.filter IsPart := List.mem_filter.mpr ⟨hf, by simp [IsPart, hs]⟩
      rw [hparts] at hmem
      exact frames_admitted m hid f hmem
  obtain ⟨buf', outs, hrun, hiff⟩ := run_inserted h2 h31 hparts
    (pack.stake (BitVec.ofNat 7 m.ctos.canId.toNat))
  obtain ⟨pack', hreceive, -, -⟩ := run_receive sn hall hrun
  rw [← hiff]
  constructor
  · intro h
    obtain ⟨ctos', hexpected⟩ := h
    rw [hreceive] at hexpected
    cases hexpected
    rfl
  · intro houts
    exact ⟨.created canId sn pack', by rw [hreceive, houts]⟩

/-- A message that `lib_ctos_put` sends in 2 to 31 frames is pushed whole, and every single
frame of its stake at once, exactly if no single frame arrives behind the second frame of the
message and before its tail. -/
theorem singles_undisturbed_iff (writen : Nat → Bool) (sender : LibCtos) (destAddr : UInt8)
    (data : Nat → UInt8) (len : Nat) (h9 : 9 ≤ len) (h248 : len ≤ 248)
    (hret : (libCtosPut writen sender destAddr data len).2.2 = libCtosEok)
    (canId sn : UInt8) (hid : sender.canId.toNat % 128 ≠ canId.toNat) (pack : StakeFrame)
    (frames : List CanFrameMetadata)
    (hparts : frames.filter IsPart = (libCtosPut writen sender destAddr data len).2.1)
    (hsingles : ∀ f ∈ frames, f.frameMark = .single →
      Admitted canId f ∧ f.sAddr = BitVec.ofNat 7 sender.canId.toNat) :
    Undisturbed (.created canId sn pack) frames (zeroPad8 (payload data len)) ↔
      NoLateSingle (frameCount len) 0 frames := by
  have hn : frameCount len = (len + 7) / 8 := frameCount_eq len
  have hsize : (messageOf sender destAddr data len canPriorityLow).size = frameCount len := rfl
  rw [libCtosPut, putBody_frames sender destAddr data canPriorityLow h9 (putBody_eok h9 hret)]
    at hparts
  exact undisturbed_message_iff (messageOf sender destAddr data len canPriorityLow) (by omega)
    (by omega) hid sn pack hparts hsingles

/-- The message of sender 1 with 24 bytes 7, and a single frame of the same stake. -/
def sevens : Message := messageOf (idleHandle 1) 2 (fun _ => 7) 24 canPriorityLow

def singleOfOne : CanFrameMetadata := frameInit (idleHandle 1) 2 1 0 0

theorem put_sevens : (libCtosPut (fun _ => true) (idleHandle 1) 2 (fun _ => 7) 24).2 =
    ([sevens.frame 0, sevens.frame 1, sevens.frame 2], libCtosEok) := by
  rw [libCtosPut, putBody_frames _ _ _ _ (by decide) (fun _ _ => rfl)]
  rfl

/-- Two single frames between the head and the second frame. -/
theorem singles_undisturbed_behind_head :
    Undisturbed (idleHandle 2)
      [sevens.frame 0, singleOfOne, singleOfOne, sevens.frame 1, sevens.frame 2]
      (zeroPad8 (payload (fun _ => 7) 24)) := by
  refine (singles_undisturbed_iff (fun _ => true) (idleHandle 1) 2 (fun _ => 7) 24 (by decide)
    (by decide) (by rw [put_sevens]) 2 0 (by decide) StakeFrame.zero _ ?_ (by decide)).mpr ?_
  · rw [put_sevens]
    rfl
  · rw [noLateSingle_cons_part (by decide), noLateSingle_cons_single rfl,
      noLateSingle_cons_single rfl, noLateSingle_cons_part (by decide),
      noLateSingle_cons_part (by decide)]
    exact ⟨Or.inl (by decide), Or.inl (by decide), noLateSingle_of_all_seen (by decide) []⟩

/-- A single frame behind the second frame: the tail pushes sixteen bytes of the 24. -/
theorem single_behind_second_frame :
    (libCtosPut (fun _ => true) (idleHandle 1) 2 (fun _ => 7) 24).2 =
      ([sevens.frame 0, sevens.frame 1, sevens.frame 2], libCtosEok) ∧
    (∃ ctos', run receive (idleHandle 2)
        [sevens.frame 0, sevens.frame 1, singleOfOne, sevens.frame 2] =
      .ok (ctos', [none, none, some (List.replicate 8 0), some (List.replicate 16 7)])) ∧
    ¬ Undisturbed (idleHandle 2) [sevens.frame 0, sevens.frame 1, singleOfOne, sevens.frame 2]
      (zeroPad8 (payload (fun _ => 7) 24)) := by
  have hrun : ∃ r, run receive (idleHandle 2)
      [sevens.frame 0, sevens.frame 1, singleOfOne, sevens.frame 2] = .ok r ∧
        r.2 = [none, none, some (List.replicate 8 0), some (List.replicate 16 7)] :=
    exists_ok (by decide +kernel)
  obtain ⟨⟨ctos', outs⟩, hrun, rfl⟩ := hrun
  refine ⟨put_sevens, ⟨ctos', hrun⟩, ?_⟩
  intro h
  obtain ⟨ctos'', hexpected⟩ := h
  rw [hrun] at hexpected
  have houts := (Prod.mk.inj (Except.ok.inj hexpected)).2
  revert houts
  decide

end BackupSoftware.Can
