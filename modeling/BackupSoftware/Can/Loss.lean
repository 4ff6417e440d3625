import BackupSoftware.Can.Senders
import BackupSoftware.Library.Numbered

/-!
# One sender on a bus that loses frames

The frames that arrive are a sublist of those written. The random code of a
message is to keep the frames of two messages apart, but the comparison at the
tail leaves out the slot of the tail, and the first middle frame overwrites the
slot of the head. What remains true is stated under a condition on the tails.
-/

namespace BackupSoftware.Can

open BackupSoftware.Library.Bytes BackupSoftware.Library.Trace BackupSoftware.Library.Numbered

/-- All frames of a run of calls, each with the number of its call. -/
def numberedWrites (ctos : LibCtos) (calls : List PutCall) : List (Nat × CanFrameMetadata) :=
  numberFrom 0 (writes ctos calls)

/-- The call number of the last head frame. -/
def lastHead (l : List (Nat × CanFrameMetadata)) : Option Nat :=
  ((l.filter fun p => p.2.frameMark = .head).getLast?).map Prod.fst

/-- Every eight-byte chunk of the block is the data of a frame of one call. -/
def FromOneCall (ctos : LibCtos) (calls : List PutCall) (block : List UInt8) : Prop :=
  ∃ k, ∀ g ∈ groups8 block, ∃ f, (k, f) ∈ numberedWrites ctos calls ∧ f.data.toList = g

/-- Whenever a tail frame meets a pending head, a matching count and agreeing
slots, the last head received is that of its own call. -/
def TailsMeetOwnHead (ctos : LibCtos) (received : List (Nat × CanFrameMetadata)) : Prop :=
  ∀ pre k tail post ctos' pack outs, received = pre ++ (k, tail) :: post →
    tail.frameMark = .tail → run receive ctos (pre.map Prod.snd) = .ok (ctos', outs) →
    ctos'.packPtr = some pack → TailFits (pack.stake tail.sAddr) tail →
    SlotsAgree (pack.stake tail.sAddr) → lastHead pre = some k

theorem mem_writes {ctos : LibCtos} {calls : List PutCall} (hc : ∀ c ∈ calls, c.Fits)
    {g : List CanFrameMetadata} (hg : g ∈ writes ctos calls) :
    ∃ m : Message, g = m.frames ∧ 2 ≤ m.size ∧ m.size ≤ 31 ∧ m.ctos.canId = ctos.canId := by
  induction calls generalizing ctos with
  | nil => cases hg
  | cons c cs ih =>
    have hfit := hc c List.mem_cons_self
    rcases List.mem_cons.mp hg with rfl | hg
    · obtain ⟨h2, h31⟩ := c.message_size hfit ctos
      exact ⟨c.message ctos, by rw [c.put_eq hfit], h2, h31, rfl⟩
    · obtain ⟨m, hm, h2, h31, hid⟩ := ih (fun d hd => hc d (List.mem_cons_of_mem _ hd)) hg
      refine ⟨m, hm, h2, h31, ?_⟩
      rw [hid, c.put_eq hfit]
      rfl

theorem lastHead_split {l : List (Nat × CanFrameMetadata)} {k : Nat} (h : lastHead l = some k) :
    ∃ a f b, l = a ++ (k, f) :: b ∧ f.frameMark = .head ∧ ∀ p ∈ b, p.2.frameMark ≠ .head := by
  by_cases hsome : ∃ p ∈ l, p.2.frameMark = .head
  · obtain ⟨a, p, b, rfl, hp, hb⟩ := exists_last hsome
    have hnone : b.filter (fun q => decide (q.2.frameMark = .head)) = [] := by
      rw [List.filter_eq_nil_iff]
      intro q hq
      simpa using hb q hq
    rw [lastHead, List.filter_append, List.filter_cons_of_pos (by simpa using hp), hnone,
      List.getLast?_concat] at h
    cases h
    exact ⟨a, p.2, b, rfl, hp, hb⟩
  · have hnone : l.filter (fun q => decide (q.2.frameMark = .head)) = [] := by
      rw [List.filter_eq_nil_iff]
      intro q hq
      simpa using fun hm => hsome ⟨q, hq, hm⟩
    rw [lastHead, hnone] at h
    cases h

/-- Between the head and the tail of a message that arrives with losses there are only
middle frames: its last frame does not come twice. -/
theorem middles_of_sublist {m : Message} (h31 : m.size ≤ 31) {head tail : CanFrameMetadata}
    {b : List CanFrameMetadata} (hsub : (head :: (b ++ [tail])).Sublist m.frames)
    (hb : ∀ f ∈ b, f.frameMark ≠ .head) (htail : tail.frameMark = .tail) :
    tail = m.frame (m.size - 1) ∧ ∀ f ∈ b, f.frameMark = .middle := by
  have hmem : ∀ f ∈ b ++ [tail], ∃ i, m.frame i = f := by
    intro f hf
    obtain ⟨i, -, hi⟩ := List.mem_map.mp (hsub.subset (List.mem_cons_of_mem _ hf))
    exact ⟨i, hi⟩
  have hlast : ∀ f ∈ b ++ [tail], f.frameMark = .tail → f = m.frame (m.size - 1) := by
    intro f hf ht
    obtain ⟨i, rfl⟩ := hmem f hf
    rw [← m.eq_last_of_tail ht]
  have htail' := hlast tail (List.mem_append_right _ List.mem_cons_self) htail
  have hnodup := (List.nodup_cons.mp ((m.frames_nodup (by omega)).sublist hsub)).2
  refine ⟨htail', fun f hf => ?_⟩
  cases hm : f.frameMark with
  | middle => rfl
  | head => exact absurd hm (hb f hf)
  | single =>
    obtain ⟨i, rfl⟩ := hmem f (List.mem_append_left _ hf)
    exact absurd hm (m.frame_ne_single i)
  | tail =>
    have heq : f = tail := by rw [hlast f (List.mem_append_left _ hf) hm, ← htail']
    subst heq
    exact absurd List.mem_cons_self ((List.nodup_append.mp hnodup).2.2 f hf f · rfl)

/-- If a tail fits after its own head, then everything between them has arrived:
of the frames in between only the count is checked, but they cannot be others. -/
theorem frames_of_fit {m : Message} (h2 : 2 ≤ m.size) (h31 : m.size ≤ 31)
    {head tail : CanFrameMetadata} {b : List CanFrameMetadata}
    (hsub : (head :: (b ++ [tail])).Sublist m.frames) (hhead : head.frameMark = .head)
    (hb : ∀ f ∈ b, f.frameMark ≠ .head) (htail : tail.frameMark = .tail)
    {buf₀ buf : StakeFrameBuf} {outs : List (Option (List UInt8))}
    (hrun : run bufReceive buf₀ (head :: b) = .ok (buf, outs)) (hfit : TailFits buf tail) :
    head :: (b ++ [tail]) = m.frames := by
  obtain ⟨hlast, hmiddle⟩ := middles_of_sublist h31 hsub hb htail
  obtain ⟨buf₁, out, outs', hstep, hrest, -⟩ := run_cons_iff.mp hrun
  have hcnt := (run_middles hmiddle hrest).1
  have hlen := hsub.length_le
  simp only [List.length_cons, List.length_append, List.length_nil, Message.frames,
    List.length_map, List.length_range] at hlen
  rw [bufReceive_head _ hhead] at hstep
  split at hstep
  · cases hstep
    have hseq : tail.frameSeq.toNat = m.size - 1 := by
      rw [hlast, m.frame_seq (by omega)]
    have hcount := hfit.1
    rw [byte_succ, hseq, hcnt] at hcount
    have h0 : (headBuf head).cnt.toNat = 0 := rfl
    apply hsub.eq_of_length
    simp only [List.length_cons, List.length_append, List.length_nil, Message.frames,
      List.length_map, List.length_range]
    omega
  · cases hstep

theorem block_of_fit {m : Message} (h2 : 2 ≤ m.size) (h31 : m.size ≤ 31)
    {head tail : CanFrameMetadata} {b : List CanFrameMetadata}
    (hframes : head :: (b ++ [tail]) = m.frames) {buf₀ buf buf' : StakeFrameBuf}
    {outs : List (Option (List UInt8))} {out : Option (List UInt8)}
    (hrun : run bufReceive buf₀ (head :: b) = .ok (buf, outs))
    (htail : bufReceive buf tail = .ok (buf', out)) : out = some m.block := by
  have hall := run_frames m h2 (by omega) buf₀
  have hsplit : run bufReceive buf₀ ((head :: b) ++ [tail]) = .ok (buf', outs ++ [out]) :=
    run_append_iff.mpr ⟨buf, outs, [out], hrun, run_cons_ok htail rfl, rfl⟩
  rw [List.cons_append, hframes, hall] at hsplit
  have houts := (Prod.mk.inj (Except.ok.inj hsplit)).2
  obtain ⟨n, hn⟩ : ∃ n, m.size = n + 1 := ⟨m.size - 1, by omega⟩
  have hpush : m.pushAt n = some m.block := by
    rw [Message.pushAt, if_pos (by omega), block_take_whole h31]
  rw [hn, List.range_succ, List.map_append, List.map_singleton] at houts
  have hlast := congrArg List.getLast? houts
  rw [List.getLast?_concat, List.getLast?_concat] at hlast
  rw [← Option.some.inj hlast, hpush]

theorem numberedWrites_frame {sender : LibCtos} {calls : List PutCall}
    (hfits : ∀ c ∈ calls, c.Fits) {canId : UInt8}
    (hid : sender.canId.toNat % 128 ≠ canId.toNat) :
    ∀ p ∈ numberedWrites sender calls, Admitted canId p.2 ∧
      p.2.sAddr = BitVec.ofNat 7 sender.canId.toNat ∧ p.2.frameMark ≠ .single := by
  intro p hp
  obtain ⟨g, hg, hpg⟩ := mem_numberFrom hp
  obtain ⟨m, rfl, -, -, hcan⟩ := mem_writes hfits hg
  have hmid : m.ctos.canId.toNat % 128 ≠ canId.toNat := by
    rw [hcan]
    exact hid
  obtain ⟨hadm, haddr⟩ := frames_admitted m hmid p.2 hpg
  obtain ⟨i, -, hi⟩ := List.mem_map.mp hpg
  refine ⟨hadm, by rw [haddr, hcan], ?_⟩
  rw [← hi]
  exact m.frame_ne_single i

/-- From a head to a tail of the same call only frames of that call have arrived, and
what the tail pushes consists of chunks of the call. -/
theorem fromOneCall_of_segment {sender : LibCtos} {calls : List PutCall}
    (hfits : ∀ c ∈ calls, c.Fits) {k : Nat} {head tail : CanFrameMetadata}
    {b : List (Nat × CanFrameMetadata)}
    (hsegment : ((k, head) :: (b ++ [(k, tail)])).Sublist (numberedWrites sender calls))
    (hhead : head.frameMark = .head) (hb : ∀ p ∈ b, p.2.frameMark ≠ .head)
    (hmark : tail.frameMark = .tail) {buf₀ buf buf' : StakeFrameBuf}
    {outs : List (Option (List UInt8))} {block : List UInt8}
    (hfrom : run bufReceive buf₀ (head :: b.map Prod.snd) = .ok (buf, outs))
    (hfit : TailFits buf tail) (htail : bufReceive buf tail = .ok (buf', some block)) :
    FromOneCall sender calls block := by
  obtain ⟨g, hg, hsub, hwritten⟩ := segment_sublist hsegment
  obtain ⟨m, rfl, h2, h31, -⟩ := mem_writes hfits hg
  have hnohead : ∀ f ∈ b.map Prod.snd, f.frameMark ≠ .head := by
    intro f hf
    obtain ⟨q, hq, rfl⟩ := List.mem_map.mp hf
    exact hb q hq
  have hframes := frames_of_fit h2 h31 hsub hhead hnohead hmark hfrom hfit
  have hpushed := block_of_fit h2 h31 hframes hfrom htail
  refine ⟨k, fun g hg => ?_⟩
  rw [Option.some.inj hpushed, groups8_block] at hg
  obtain ⟨f, hf, rfl⟩ := List.mem_map.mp hg
  exact ⟨f, hwritten f hf, rfl⟩

/-- In every run with any frames lost whose tails meet the head of
their own call, every block pushed consists of chunks of one call. The number of
calls lost in a row plays no part. -/
theorem loss_no_mixing (sender : LibCtos) (calls : List PutCall) (hfits : ∀ c ∈ calls, c.Fits)
    (canId sn : UInt8) (hid : sender.canId.toNat % 128 ≠ canId.toNat) (pack : StakeFrame)
    (received : List (Nat × CanFrameMetadata))
    (hlost : received.Sublist (numberedWrites sender calls))
    (htails : TailsMeetOwnHead (.created canId sn pack) received)
    (ctos' : LibCtos) (outs : List (Option (List UInt8)))
    (hrun : run receive (.created canId sn pack) (received.map Prod.snd) = .ok (ctos', outs)) :
    ∀ block ∈ pushes outs, FromOneCall sender calls block := by
  intro block hblock
  have hframe := numberedWrites_frame hfits hid
  obtain ⟨o, ho, hob⟩ := List.mem_filterMap.mp hblock
  obtain ⟨pre', tail, post', u, u', outs₁, hsplit, hpre, hstep⟩ := run_output hrun ho
  obtain ⟨pre, rest, rfl, rfl, hrest⟩ := List.map_eq_append_iff.mp hsplit
  obtain ⟨⟨k, tail⟩, post, rfl, rfl, rfl⟩ := List.map_eq_cons_iff.mp hrest
  have hstake : ∀ f ∈ pre.map Prod.snd, Admitted canId f ∧
      f.sAddr = BitVec.ofNat 7 sender.canId.toNat := by
    intro f hf
    obtain ⟨p, hp, rfl⟩ := List.mem_map.mp hf
    obtain ⟨hadm, haddr, -⟩ := hframe p (hlost.subset (List.mem_append_left _ hp))
    exact ⟨hadm, haddr⟩
  obtain ⟨htadm, htaddr, htsingle⟩ := hframe (k, tail)
    (hlost.subset (List.mem_append_right _ List.mem_cons_self))
  obtain ⟨pack', rfl, hbufrun⟩ := run_receive_inv hstake hpre
  obtain ⟨pack'', -, htail⟩ := receive_inv htadm hstep
  obtain rfl : o = some block := hob
  obtain ⟨hmark, hfit, hagree, -⟩ := bufReceive_push htail htsingle
  obtain ⟨a, head, b, rfl, hhead, hb⟩ := lastHead_split
    (htails pre k tail post _ pack' outs₁ rfl hmark hpre rfl hfit hagree)
  have hsegment : ((k, head) :: (b ++ [(k, tail)])).Sublist (numberedWrites sender calls) := by
    refine List.Sublist.trans (List.IsInfix.sublist ⟨a, post, ?_⟩) hlost
    simp
  rw [List.map_append, List.map_cons, run_append_iff] at hbufrun
  obtain ⟨buf₀, outs₂, outs₃, -, hfrom, -⟩ := hbufrun
  rw [← htaddr] at hfrom
  exact fromOneCall_of_segment hfits hsegment hhead hb hmark hfrom hfit htail

def onesAndTwos : List PutCall := [⟨3, fun _ => 1, 16⟩, ⟨3, fun _ => 2, 16⟩]

theorem onesAndTwos_fits : ∀ c ∈ onesAndTwos, c.Fits := by
  intro c hc
  simp only [onesAndTwos, List.mem_cons, List.not_mem_nil, or_false] at hc
  rcases hc with rfl | rfl <;> exact ⟨show 9 ≤ 16 by decide, show 16 ≤ 248 by decide⟩

/-- The tail of the first call is lost; the second call arrives whole. -/
theorem loss_no_mixing_first_tail_lost :
    ∃ ctos' outs, run receive (idleHandle 3)
        (((numberedWrites (idleHandle 1) onesAndTwos).eraseIdx 1).map Prod.snd) = .ok (ctos', outs) ∧
      ∀ block ∈ pushes outs, FromOneCall (idleHandle 1) onesAndTwos block := by
  have hdone : ∃ r, run receive (idleHandle 3)
      (((numberedWrites (idleHandle 1) onesAndTwos).eraseIdx 1).map Prod.snd) = .ok r ∧ True :=
    exists_ok (by decide)
  obtain ⟨⟨ctos', outs⟩, hrun, -⟩ := hdone
  refine ⟨ctos', outs, hrun, ?_⟩
  refine loss_no_mixing (idleHandle 1) onesAndTwos onesAndTwos_fits 3 0 (by decide) .zero _
    (List.eraseIdx_sublist _ _) ?_ ctos' outs hrun
  intro pre k tail post _ _ _ hsplit hmark _ _ _ _
  rcases pre with _ | ⟨p, _ | ⟨q, _ | ⟨r, pre⟩⟩⟩
  · cases hsplit; cases hmark
  · cases hsplit; cases hmark
  · cases hsplit; rfl
  · have hthree : ((numberedWrites (idleHandle 1) onesAndTwos).eraseIdx 1).length = 3 := rfl
    rw [hsplit] at hthree
    simp only [List.length_append, List.length_cons] at hthree
    omega

/-- At least one frame of any eight consecutive calls arrives. -/
def NoEightLost (calls : List PutCall) (received : List (Nat × CanFrameMetadata)) : Prop :=
  ∀ k, k + 8 ≤ calls.length → ∃ p ∈ received, k ≤ p.1 ∧ p.1 < k + 8

/-- The head of the first call and the tail of the second arrive, with different
random codes. They are pushed as one block. -/
theorem mixed_message_pushed :
    ¬ ∀ (sender : LibCtos) (calls : List PutCall) (canId sn : UInt8) (pack : StakeFrame)
      (received : List (Nat × CanFrameMetadata)) (ctos' : LibCtos)
      (outs : List (Option (List UInt8))), (∀ c ∈ calls, c.Fits) →
      sender.canId.toNat % 128 ≠ canId.toNat →
      received.Sublist (numberedWrites sender calls) → NoEightLost calls received →
      run receive (.created canId sn pack) (received.map Prod.snd) = .ok (ctos', outs) →
      ∀ block ∈ pushes outs, FromOneCall sender calls block := by
  intro h
  have hpushed : ∃ r, run receive (idleHandle 3)
      ((((numberedWrites (idleHandle 1) onesAndTwos).eraseIdx 2).eraseIdx 1).map Prod.snd) =
        .ok r ∧ pushes r.2 = [List.replicate 8 1 ++ List.replicate 8 2] :=
    exists_ok (by decide +kernel)
  obtain ⟨⟨ctos', outs⟩, hrun, hblocks⟩ := hpushed
  have hlost : NoEightLost onesAndTwos
      (((numberedWrites (idleHandle 1) onesAndTwos).eraseIdx 2).eraseIdx 1) := by
    intro k hk
    exact absurd hk (by simp [onesAndTwos])
  obtain ⟨k, hk⟩ := h (idleHandle 1) onesAndTwos 3 0 .zero _ ctos' outs onesAndTwos_fits (by decide)
    ((List.eraseIdx_sublist _ _).trans (List.eraseIdx_sublist _ _)) hlost hrun
    (List.replicate 8 1 ++ List.replicate 8 2)
    (by rw [hblocks]; exact List.mem_cons_self)
  have hgroups : groups8 (List.replicate 8 1 ++ List.replicate 8 2) =
      [List.replicate 8 1, List.replicate 8 2] := groups8_flatten
        [List.replicate 8 1, List.replicate 8 2] (by decide)
  rw [hgroups] at hk
  obtain ⟨f, hf, hones⟩ := hk (List.replicate 8 1) (by decide)
  obtain ⟨f', hf', htwos⟩ := hk (List.replicate 8 2) (by decide)
  have hcalls : ∀ p ∈ numberedWrites (idleHandle 1) onesAndTwos,
      (p.2.data.toList = List.replicate 8 1 → p.1 = 0) ∧
      (p.2.data.toList = List.replicate 8 2 → p.1 = 1) := by decide
  have h0 := (hcalls _ hf).1 hones
  have h1 := (hcalls _ hf').2 htwos
  omega

end BackupSoftware.Can
