import BackupSoftware.Can.Reassembly
import BackupSoftware.Library.Numbered

/-!
# What an accepted tail says about the frames before it

Frames of one stake in any order, with any of them lost or repeated. A tail is
accepted on the number of frames since the head and not on which they are, so
the block holds, at each position, the last frame with that number.
-/

namespace BackupSoftware.Can

open BackupSoftware.Library.Bytes BackupSoftware.Library.Trace BackupSoftware.Library.Numbered

/-- The data of the last frame with number `j`, zeros if there is none. -/
def lastData (j : Nat) (frames : List CanFrameMetadata) : Vector UInt8 8 :=
  frames.foldl (fun data f => if f.frameSeq.toNat = j then f.data else data) (Vector.replicate 8 0)

theorem lastData_concat (j : Nat) (frames : List CanFrameMetadata) (f : CanFrameMetadata) :
    lastData j (frames ++ [f]) = if f.frameSeq.toNat = j then f.data else lastData j frames := by
  rw [lastData, List.foldl_append]
  rfl

def middles (frames : List CanFrameMetadata) : Nat :=
  frames.countP fun f => f.frameMark = .middle

/-- The buffer after a head frame and the frames received since, none of which was
an accepted tail. -/
structure Since (frames : List CanFrameMetadata) (buf : StakeFrameBuf) : Prop where
  head : buf.hasFrameHead = 1
  cnt : (buf.cnt.toNat + 1) % 256 = frames.length % 256
  len : buf.len.toNat = 8 * (middles frames + 1) % 256
  data : ∀ k, ∀ hk : k < 320, buf.data[k] = (lastData (k / 8) frames)[k % 8]

theorem overlay_lastData {frames : List CanFrameMetadata} {data : Vector UInt8 320}
    (hd : ∀ k, ∀ hk : k < 320, data[k] = (lastData (k / 8) frames)[k % 8]) (f : CanFrameMetadata)
    {k : Nat} (hk : k < 320) :
    (overlay data (f.frameSeq.toNat * 8) f.data)[k] = (lastData (k / 8) (frames ++ [f]))[k % 8] := by
  by_cases h : f.frameSeq.toNat * 8 ≤ k ∧ k < f.frameSeq.toNat * 8 + 8
  · have hj : f.frameSeq.toNat = k / 8 := by omega
    have hi : k - f.frameSeq.toNat * 8 = k % 8 := by omega
    rw [overlay_inside _ _ _ hk h]
    simp only [lastData_concat, if_pos hj, hi]
  · have hj : ¬ f.frameSeq.toNat = k / 8 := by omega
    rw [overlay_outside _ _ _ hk h, hd k hk]
    simp only [lastData_concat, if_neg hj]

theorem since_head {h : CanFrameMetadata} (hm : h.frameMark = .head) : Since [h] (headBuf h) where
  head := rfl
  cnt := rfl
  len := by simp [headBuf, middles, hm]
  data := by
    intro k hk
    have hzero : ∀ i, ∀ hi : i < 320,
        StakeFrameBuf.zero.data[i] = (lastData (i / 8) [])[i % 8] := by
      intro i hi
      simp [StakeFrameBuf.zero, lastData]
    exact overlay_lastData hzero h hk

theorem middles_concat (frames : List CanFrameMetadata) (f : CanFrameMetadata) :
    middles (frames ++ [f]) = middles frames + if f.frameMark = .middle then 1 else 0 := by
  simp [middles, List.countP_append, List.countP_cons]

theorem since_middle {frames : List CanFrameMetadata} {buf : StakeFrameBuf}
    {f : CanFrameMetadata} (hm : f.frameMark = .middle) (h : Since frames buf) :
    Since (frames ++ [f]) (middleBuf buf f) where
  head := h.head
  cnt := by
    have hc := h.cnt
    simp only [middleBuf, byte_succ, List.length_append, List.length_cons, List.length_nil]
    omega
  len := by
    have hl := h.len
    simp only [middleBuf, byte_add_eight, middles_concat, if_pos hm]
    omega
  data := fun _ hk => overlay_lastData h.data f hk

theorem since_rejected {frames : List CanFrameMetadata} {buf : StakeFrameBuf}
    {f : CanFrameMetadata} (hm : f.frameMark = .tail) (h : Since frames buf) :
    Since (frames ++ [f]) (rejectedBuf buf f) where
  head := h.head
  cnt := by
    have hc := h.cnt
    simp only [rejectedBuf, byte_succ, List.length_append, List.length_cons, List.length_nil]
    omega
  len := by
    have hne : ¬ f.frameMark = .middle := by rw [hm]; decide
    simp only [rejectedBuf, middles_concat, if_neg hne, Nat.add_zero]
    exact h.len
  data := fun _ hk => overlay_lastData h.data f hk

theorem run_no_head {frames : List CanFrameMetadata} (hf : ∀ f ∈ frames, f.frameMark ≠ .head)
    {buf buf' : StakeFrameBuf} {outs : List (Option (List UInt8))}
    (h : run bufReceive buf frames = .ok (buf', outs)) (h0 : buf.hasFrameHead ≠ 1) :
    buf'.hasFrameHead ≠ 1 := by
  induction frames generalizing buf outs with
  | nil => obtain ⟨rfl, -⟩ := run_nil_iff.mp h; exact h0
  | cons f frames ih =>
    obtain ⟨buf₁, out, outs', hstep, hrest, -⟩ := run_cons_iff.mp h
    refine ih (fun g hg => hf g (List.mem_cons_of_mem _ hg)) hrest ?_
    rcases bufReceive_cases hstep with ⟨-, rfl, -⟩ | ⟨-, ⟨hm, -⟩ | ⟨-, -, rfl, -⟩ | ⟨-, -, rfl, -⟩ |
      ⟨-, -, -, rfl, -⟩⟩
    · exact h0
    · exact absurd hm (hf f List.mem_cons_self)
    · exact h0
    · exact h0
    · decide

theorem run_since {frames b : List CanFrameMetadata}
    (hb : ∀ f ∈ b, f.frameMark ≠ .head ∧ f.frameMark ≠ .single) {buf buf' : StakeFrameBuf}
    {outs : List (Option (List UInt8))} (hs : Since frames buf)
    (h : run bufReceive buf b = .ok (buf', outs)) (hend : buf'.hasFrameHead = 1) :
    Since (frames ++ b) buf' := by
  induction b generalizing frames buf outs with
  | nil =>
    obtain ⟨rfl, -⟩ := run_nil_iff.mp h
    rw [List.append_nil]
    exact hs
  | cons f b ih =>
    obtain ⟨buf₁, out, outs', hstep, hrest, -⟩ := run_cons_iff.mp h
    have htail : ∀ g ∈ b, g.frameMark ≠ .head ∧ g.frameMark ≠ .single :=
      fun g hg => hb g (List.mem_cons_of_mem _ hg)
    have hassoc : frames ++ f :: b = (frames ++ [f]) ++ b := by simp
    rw [hassoc]
    obtain ⟨hnh, hns⟩ := hb f List.mem_cons_self
    rcases bufReceive_cases hstep with ⟨hm, -⟩ | ⟨-, ⟨hm, -⟩ | ⟨hm, -, rfl, -⟩ | ⟨hm, -, rfl, -⟩ |
      ⟨-, -, -, rfl, -⟩⟩
    · exact absurd hm hns
    · exact absurd hm hnh
    · exact ih htail (since_middle hm hs) hrest
    · exact ih htail (since_rejected hm hs) hrest
    · exact absurd hend (run_no_head (fun g hg => (htail g hg).1) hrest (by decide))

/-- The chunks with numbers below `n`, in the order of their numbers. -/
def chunksBelow (n : Nat) (frames : List CanFrameMetadata) : List UInt8 :=
  ((List.range n).map fun j => (lastData j frames).toList).flatten

theorem length_chunksBelow (n : Nat) (frames : List CanFrameMetadata) :
    (chunksBelow n frames).length = 8 * n := by
  simp [chunksBelow, List.length_flatten, Function.comp_def, Nat.mul_comm]

theorem tailBlock_since {frames : List CanFrameMetadata} {buf : StakeFrameBuf}
    (h : Since frames buf) (t : CanFrameMetadata) :
    tailBlock buf t = chunksBelow ((middles frames + 2) % 32) (frames ++ [t]) := by
  have hl : (buf.len + 8).toNat = 8 * ((middles frames + 2) % 32) := by
    have hlen := h.len
    rw [byte_add_eight]
    omega
  apply eq_flatten_groups (g := fun j => lastData j (frames ++ [t]))
  · rw [tailBlock, hl, List.length_take, Vector.length_toList]
    omega
  · intro k hk
    have hk' : k < 320 := by omega
    rw [tailBlock, hl, List.getElem?_take_of_lt hk, List.getElem?_eq_getElem (by simpa using hk'),
      Vector.getElem_toList, overlay_lastData h.data t hk']

/-- The last head frame among `frames` and the frames after it. -/
def LatestHead (frames : List CanFrameMetadata) (head : CanFrameMetadata)
    (since : List CanFrameMetadata) : Prop :=
  (∃ before, frames = before ++ head :: since) ∧ head.frameMark = .head ∧
    ∀ f ∈ since, f.frameMark ≠ .head

theorem run_receive_passed {canId sn : UInt8} {pack : StakeFrame} {id : BitVec 7}
    {frames : List CanFrameMetadata} (ha : ∀ f ∈ frames, f.sAddr = id) {ctos' : LibCtos}
    {outs : List (Option (List UInt8))}
    (h : run receive (.created canId sn pack) frames = .ok (ctos', outs)) :
    ∃ pack' outs', ctos' = .created canId sn pack' ∧
      run bufReceive (pack.stake id) (frames.filter (Admitted canId ·)) =
        .ok (pack'.stake id, outs') := by
  induction frames generalizing pack outs with
  | nil =>
    obtain ⟨rfl, -⟩ := run_nil_iff.mp h
    exact ⟨pack, [], rfl, rfl⟩
  | cons f frames ih =>
    obtain ⟨s', out, outs', hstep, hrest, -⟩ := run_cons_iff.mp h
    have htail : ∀ g ∈ frames, g.sAddr = id := fun g hg => ha g (List.mem_cons_of_mem _ hg)
    by_cases hadm : Admitted canId f
    · obtain ⟨pack₁, rfl, hf⟩ := receive_inv hadm hstep
      rw [ha f List.mem_cons_self] at hf
      obtain ⟨pack', outs'', rfl, hrun⟩ := ih htail hrest
      refine ⟨pack', out :: outs'', rfl, ?_⟩
      rw [List.filter_cons_of_pos (by simpa using hadm)]
      exact run_cons_ok hf hrun
    · obtain ⟨pack₁, hsame, hbuf⟩ := receive_not_admitted sn pack hadm
      rw [hstep] at hsame
      cases hsame
      obtain ⟨pack', outs'', rfl, hrun⟩ := ih htail hrest
      refine ⟨pack', outs'', rfl, ?_⟩
      rw [List.filter_cons_of_neg (by simpa using hadm)]
      rw [StakeFrame.stake, hbuf] at hrun
      exact hrun

theorem since_latestHead {frames since : List CanFrameMetadata} {head : CanFrameMetadata}
    (hlatest : LatestHead frames head since) (hmark : ∀ f ∈ frames, f.frameMark ≠ .single)
    {buf buf' : StakeFrameBuf} {outs : List (Option (List UInt8))}
    (h : run bufReceive buf frames = .ok (buf', outs)) (hend : buf'.hasFrameHead = 1) :
    Since (head :: since) buf' ∧
      ((∀ f ∈ since, f.frameMark = .middle) → since.length ≤ 64) := by
  obtain ⟨⟨before, rfl⟩, hhead, hsince⟩ := hlatest
  obtain ⟨buf₀, outs₁, outs₂, -, hfrom, -⟩ := run_append_iff.mp h
  obtain ⟨buf₁, out, outs', hstep, hrest, -⟩ := run_cons_iff.mp hfrom
  rw [bufReceive_head _ hhead] at hstep
  split at hstep
  · cases hstep
    refine ⟨run_since (fun f hf => ⟨hsince f hf, hmark f ?_⟩) (since_head hhead) hrest hend, ?_⟩
    · exact List.mem_append_right _ (List.mem_cons_of_mem _ hf)
    · intro hmiddle
      have hbound := (run_middles hmiddle hrest).2 (Nat.zero_le _)
      omega
  · cases hstep

theorem tailFits_since {head tail : CanFrameMetadata} {since : List CanFrameMetadata}
    {buf : StakeFrameBuf} (hs : Since (head :: since) buf) (hhead : head.frameMark = .head)
    (hfit : TailFits buf tail)
    (hbound : (∀ f ∈ since, f.frameMark = .middle) → since.length ≤ 64) :
    (since.length + 2) % 256 = tail.frameSeq.toNat + 1 ∧
    (middles since + 2 ≤ 31 →
      tailBlock buf tail = chunksBelow (middles since + 2) (head :: since ++ [tail])) ∧
    ((∀ f ∈ since, f.frameMark = .middle) →
      since.length + 2 = tail.frameSeq.toNat + 1 ∧
      (tail.frameSeq.toNat + 1 ≤ 31 →
        tailBlock buf tail = chunksBelow (tail.frameSeq.toNat + 1) (head :: since ++ [tail]) ∧
        (tailBlock buf tail).length = 8 * (tail.frameSeq.toNat + 1))) := by
  have hnum : tail.frameSeq.toNat < 64 := tail.frameSeq.isLt
  have hcount : (since.length + 1) % 256 = tail.frameSeq.toNat := by
    have hc := hs.cnt
    rw [← hfit.1, byte_succ, hc, List.length_cons]
  have hheadmark : ¬ head.frameMark = .middle := by rw [hhead]; decide
  have hmiddles : middles (head :: since) = middles since := by
    simp [middles, hheadmark]
  have hblock : middles since + 2 ≤ 31 →
      tailBlock buf tail = chunksBelow (middles since + 2) (head :: since ++ [tail]) := by
    intro h31
    rw [tailBlock_since hs, hmiddles, Nat.mod_eq_of_lt (by omega)]
  refine ⟨by omega, hblock, fun hall => ?_⟩
  have hlen : middles since = since.length := List.countP_eq_length.mpr (by simpa using hall)
  have h64 := hbound hall
  have hk : since.length + 2 = tail.frameSeq.toNat + 1 := by omega
  refine ⟨hk, fun h31 => ?_⟩
  have hchunks := hblock (by omega)
  rw [hlen, hk] at hchunks
  exact ⟨hchunks, by rw [hchunks, length_chunksBelow]⟩

/-- When a tail numbered `k - 1` pushes a block, `k` frames have
come since the last head, tail and head included, counted in a byte. The block has
one chunk for the head, the tail and each middle frame, up to 31 of them, and chunk
`j` is that of the last of these frames numbered `j`. -/
theorem accepted_tail (canId sn : UInt8) (pack : StakeFrame) (id : BitVec 7)
    (frames : List CanFrameMetadata) (tail : CanFrameMetadata)
    (hstake : ∀ f ∈ frames ++ [tail], f.sAddr = id ∧ f.frameMark ≠ .single)
    (ctos' ctos'' : LibCtos) (outs : List (Option (List UInt8))) (block : List UInt8)
    (hrun : run receive (.created canId sn pack) frames = .ok (ctos', outs))
    (hpush : receive ctos' tail = .ok (ctos'', some block)) :
    ((pack.stake id).hasFrameHead ≠ 1 →
      ∃ head since, LatestHead (frames.filter (Admitted canId ·)) head since) ∧
    ∀ head since, LatestHead (frames.filter (Admitted canId ·)) head since →
      (since.length + 2) % 256 = tail.frameSeq.toNat + 1 ∧
      (middles since + 2 ≤ 31 →
        block = chunksBelow (middles since + 2) (head :: since ++ [tail])) ∧
      ((∀ f ∈ since, f.frameMark = .middle) →
        since.length + 2 = tail.frameSeq.toNat + 1 ∧
        (tail.frameSeq.toNat + 1 ≤ 31 →
          block = chunksBelow (tail.frameSeq.toNat + 1) (head :: since ++ [tail]) ∧
          block.length = 8 * (tail.frameSeq.toNat + 1))) := by
  have hmarks : ∀ f ∈ frames.filter (Admitted canId ·), f.frameMark ≠ .single := fun f hf =>
    (hstake f (List.mem_append_left _ (List.mem_of_mem_filter hf))).2
  obtain ⟨htaddr, htsingle⟩ := hstake tail (List.mem_append_right _ List.mem_cons_self)
  obtain ⟨pack', outs', rfl, hbuf⟩ := run_receive_passed
    (fun f hf => (hstake f (List.mem_append_left _ hf)).1) hrun
  have hadm : Admitted canId tail := by
    by_contra hno
    obtain ⟨pack'', hnone, -⟩ := receive_not_admitted sn pack' hno
    rw [hpush] at hnone
    cases hnone
  obtain ⟨pack'', -, hstep⟩ := receive_inv hadm hpush
  rw [htaddr] at hstep
  obtain ⟨-, hfit, -, rfl⟩ := bufReceive_push hstep htsingle
  refine ⟨fun hinit => ?_, fun head since hlatest => ?_⟩
  · have hexists : ∃ f ∈ frames.filter (Admitted canId ·), f.frameMark = .head := by
      by_contra hno
      exact run_no_head (fun f hf hm => hno ⟨f, hf, hm⟩) hbuf hinit hfit.2
    obtain ⟨before, head, since, hsplit, hhead, hsince⟩ := exists_last hexists
    exact ⟨head, since, ⟨before, hsplit⟩, hhead, hsince⟩
  · obtain ⟨hs, hbound⟩ := since_latestHead hlatest hmarks hbuf hfit.2
    exact tailFits_since hs hlatest.2.1 hfit hbound

/-- A frame of stake 1 with this mark and number, filled with one byte. -/
def filledFrame (mark : FrameMark) (seq : BitVec 6) (byte : UInt8) : CanFrameMetadata :=
  ⟨3, 1, mark, seq, 0, 0, 1, 0, 0, 1, 8, Vector.replicate 8 byte⟩

theorem accepted_tail_three_frames :
    ∃ ctos' outs ctos'' block,
      run receive (idleHandle 3) [filledFrame .head 0 5, filledFrame .middle 1 6] =
        .ok (ctos', outs) ∧
      receive ctos' (filledFrame .tail 2 7) = .ok (ctos'', some block) ∧ block.length = 24 := by
  have hpush : ∃ ctos' outs ctos'' out,
      run receive (idleHandle 3) [filledFrame .head 0 5, filledFrame .middle 1 6] =
        .ok (ctos', outs) ∧
      receive ctos' (filledFrame .tail 2 7) = .ok (ctos'', out) ∧ out ≠ none :=
    exists_last_step (by decide)
  obtain ⟨ctos', outs, ctos'', _ | block, hrun, htail, hout⟩ := hpush
  · exact absurd rfl hout
  · have hall := (accepted_tail 3 0 .zero 1 _ _ (by decide) ctos' ctos'' outs block hrun htail).2
      (filledFrame .head 0 5) [filledFrame .middle 1 6] ⟨⟨[], by decide⟩, rfl, by decide⟩
    exact ⟨ctos', outs, ctos'', block, hrun, htail, ((hall.2.2 (by decide)).2 (by decide)).2⟩

/-- From cleared buffers, a middle frame that arrives twice stands for one that is
lost: the frames 0, 1, 1 and 3 are accepted. -/
theorem duplicate_frame_accepted :
    ¬ ∀ (canId sn : UInt8) (pack : StakeFrame) (id : BitVec 7) (frames : List CanFrameMetadata)
      (tail : CanFrameMetadata) (ctos' ctos'' : LibCtos) (outs : List (Option (List UInt8)))
      (block : List UInt8),
      (∀ f ∈ frames ++ [tail], Admitted canId f ∧ f.sAddr = id ∧ f.frameMark ≠ .single ∧
        f.frameSeq.toNat < 40) →
      run receive (.created canId sn pack) frames = .ok (ctos', outs) →
      receive ctos' tail = .ok (ctos'', some block) →
      ∃ head since, LatestHead frames head since ∧ head.frameSeq = 0 ∧
        ((head :: since ++ [tail]).map (·.frameSeq.toNat)).Perm
          (List.range (tail.frameSeq.toNat + 1)) ∧
        block = chunksBelow (tail.frameSeq.toNat + 1) (head :: since ++ [tail]) ∧
        block.length = 8 * (tail.frameSeq.toNat + 1) := by
  intro h
  have hpush : ∃ ctos' outs ctos'' out,
      run receive (idleHandle 3)
        [filledFrame .head 0 5, filledFrame .middle 1 6, filledFrame .middle 1 6] =
        .ok (ctos', outs) ∧
      receive ctos' (filledFrame .tail 3 7) = .ok (ctos'', out) ∧ out ≠ none :=
    exists_last_step (by decide)
  obtain ⟨ctos', outs, ctos'', _ | block, hrun, htail, hout⟩ := hpush
  · exact absurd rfl hout
  · obtain ⟨head, since, ⟨⟨before, hsplit⟩, -⟩, -, hperm, -⟩ :=
      h 3 0 .zero 1 _ _ ctos' ctos'' outs block (by decide) hrun htail
    have hno : ∀ f ∈ before ++ (head :: since ++ [filledFrame .tail 3 7]),
        f.frameSeq.toNat ≠ 2 := by
      have hall : before ++ (head :: since ++ [filledFrame .tail 3 7]) =
          [filledFrame .head 0 5, filledFrame .middle 1 6, filledFrame .middle 1 6] ++
            [filledFrame .tail 3 7] := by
        rw [hsplit, List.append_assoc]
      rw [hall]
      decide
    obtain ⟨f, hf, h2⟩ := List.mem_map.mp (hperm.mem_iff.mpr (List.mem_range.mpr (by decide : 2 < 4)))
    exact hno f (List.mem_append_right _ hf) h2

end BackupSoftware.Can
