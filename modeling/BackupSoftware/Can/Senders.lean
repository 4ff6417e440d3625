import BackupSoftware.Can.Reassembly

/-!
# Several senders on one bus

Each sender makes any number of `lib_ctos_put` calls; the receiver sees their
frames in some order that keeps each sender's own. The buffers of different
stakes are independent, so every message arrives as it does alone.
-/

namespace BackupSoftware.Can

open BackupSoftware.Library.Bytes BackupSoftware.Library.Trace

/-- The arguments of one `lib_ctos_put`. -/
structure PutCall where
  destAddr : UInt8
  data : Nat → UInt8
  len : Nat

/-- The payload of a call, zero-padded to a multiple of eight. -/
def PutCall.block (c : PutCall) : List UInt8 := zeroPad8 (payload c.data c.len)

/-- The sender after a call and the frames it wrote, every write succeeding. -/
def PutCall.put (c : PutCall) (ctos : LibCtos) : LibCtos × List CanFrameMetadata :=
  let (ctos, frames, _) := libCtosPut (fun _ => true) ctos c.destAddr c.data c.len
  (ctos, frames)

def PutCall.message (c : PutCall) (ctos : LibCtos) : Message :=
  messageOf ctos c.destAddr c.data c.len canPriorityLow

def writes (ctos : LibCtos) : List PutCall → List (List CanFrameMetadata)
  | [] => []
  | c :: cs => (c.put ctos).2 :: writes (c.put ctos).1 cs

/-- Everything a sender writes in a run of calls. A tail frame is accompanied by
the block of its call, every other frame by nothing. -/
def emitted (ctos : LibCtos) : List PutCall → List (CanFrameMetadata × Option (List UInt8))
  | [] => []
  | c :: cs =>
      ((c.put ctos).2.map fun f => (f, if f.frameMark = .tail then some c.block else none)) ++
        emitted (c.put ctos).1 cs

theorem emitted_frames (ctos : LibCtos) (calls : List PutCall) :
    (emitted ctos calls).map Prod.fst = (writes ctos calls).flatten := by
  induction calls generalizing ctos with
  | nil => rfl
  | cons c cs ih => simp [emitted, writes, ih, Function.comp_def]

/-- Payloads of 9 to 248 bytes: two to 31 frames. -/
def PutCall.Fits (c : PutCall) : Prop := 9 ≤ c.len ∧ c.len ≤ 248

theorem PutCall.put_eq {c : PutCall} (hc : c.Fits) (ctos : LibCtos) :
    c.put ctos = ((frameSnGet ctos).2, (c.message ctos).frames) := by
  have h := putBody_frames ctos c.destAddr c.data canPriorityLow hc.1
    (show ∀ k < frameCount c.len, (fun _ : Nat => true) k = true from fun _ _ => rfl)
  simp only [PutCall.put, libCtosPut, h]
  rfl

theorem PutCall.message_size {c : PutCall} (hc : c.Fits) (ctos : LibCtos) :
    2 ≤ (c.message ctos).size ∧ (c.message ctos).size ≤ 31 := by
  have hn : (c.message ctos).size = (c.len + 7) / 8 := frameCount_eq c.len
  have h9 := hc.1
  have h248 := hc.2
  omega

theorem emitted_call {c : PutCall} (hc : c.Fits) (ctos : LibCtos) :
    ((c.put ctos).2.map fun f => (f, if f.frameMark = .tail then some c.block else none)) =
      (List.range (c.message ctos).size).map fun i =>
        ((c.message ctos).frame i, (c.message ctos).pushAt i) := by
  obtain ⟨h2, h31⟩ := c.message_size hc ctos
  rw [c.put_eq hc, Message.frames, List.map_map]
  apply List.map_congr_left
  intro i hi
  have hlt := List.mem_range.mp hi
  simp only [Function.comp_apply, Prod.mk.injEq, true_and]
  by_cases hlast : i = (c.message ctos).size - 1
  · subst hlast
    rw [if_pos ((c.message ctos).frame_tail h2), Message.pushAt, if_pos rfl,
      block_take_whole h31]
    rfl
  · rw [Message.pushAt, if_neg hlast, if_neg]
    by_cases h0 : i = 0
    · rw [h0, Message.frame_head]
      decide
    · rw [(c.message ctos).frame_middle (by omega) (by omega)]
      decide

theorem run_emitted (ctos : LibCtos) {calls : List PutCall} (hc : ∀ c ∈ calls, c.Fits)
    (buf : StakeFrameBuf) :
    ∃ buf', run bufReceive buf ((emitted ctos calls).map Prod.fst) =
      .ok (buf', (emitted ctos calls).map Prod.snd) := by
  induction calls generalizing ctos buf with
  | nil => exact ⟨buf, rfl⟩
  | cons c cs ih =>
    have hfit := hc c List.mem_cons_self
    obtain ⟨h2, h31⟩ := c.message_size hfit ctos
    obtain ⟨buf', hrest⟩ := ih (c.put ctos).1 (fun d hd => hc d (List.mem_cons_of_mem _ hd))
      StakeFrameBuf.zero
    have hfirst := run_frames (c.message ctos) h2 (by omega) buf
    refine ⟨buf', ?_⟩
    rw [emitted, emitted_call hfit ctos, List.map_append, List.map_append, run_append_iff]
    refine ⟨StakeFrameBuf.zero, _, _, ?_, hrest, rfl⟩
    rw [List.map_map, List.map_map]
    exact hfirst

theorem emitted_frame (ctos : LibCtos) {calls : List PutCall} (hc : ∀ c ∈ calls, c.Fits) :
    ∀ p ∈ emitted ctos calls, p.1.sAddr = BitVec.ofNat 7 ctos.canId.toNat ∧ p.1.err ≠ 1 := by
  induction calls generalizing ctos with
  | nil => intro p hp; cases hp
  | cons c cs ih =>
    intro p hp
    have hfit := hc c List.mem_cons_self
    rw [emitted, emitted_call hfit ctos, List.mem_append] at hp
    rcases hp with hp | hp
    · obtain ⟨i, -, rfl⟩ := List.mem_map.mp hp
      exact ⟨rfl, by simp [Message.frame, frameInit]⟩
    · have h := ih (c.put ctos).1 (fun d hd => hc d (List.mem_cons_of_mem _ hd)) p hp
      rw [c.put_eq hfit] at h
      exact h

/-- A run of calls is accompanied by exactly one block per call, in order. -/
theorem emitted_blocks {ctos : LibCtos} {calls : List PutCall} (hc : ∀ c ∈ calls, c.Fits) :
    pushes ((emitted ctos calls).map Prod.snd) = calls.map PutCall.block := by
  induction calls generalizing ctos with
  | nil => rfl
  | cons c cs ih =>
    have hfit := hc c List.mem_cons_self
    obtain ⟨h2, h31⟩ := c.message_size hfit ctos
    have hfirst := pushes_message (c.message ctos) h2
    rw [block_take_whole h31] at hfirst
    rw [emitted, emitted_call hfit ctos, List.map_append, pushes, List.filterMap_append,
      List.map_map, List.map_cons]
    exact congrArg₂ (· ++ ·) hfirst (ih fun d hd => hc d (List.mem_cons_of_mem _ hd))

/-- The stakes of several senders are components of the receiver: a frame of one of them
steps the buffer of its stake and leaves the others alone. -/
theorem receive_component {ι : Type} {stakes : ι → BitVec 7}
    (hdistinct : ∀ i j, stakes i = stakes j → i = j) {canId : UInt8} (sn : UInt8)
    (hother : ∀ i, (stakes i).toNat ≠ canId.toNat) (pack : StakeFrame) (s : LibCtos) (i : ι)
    (f : CanFrameMetadata) (buf : StakeFrameBuf) (out : Option (List UInt8))
    (hs : ∃ pack', s = .created canId sn pack') (hf : f.sAddr = stakes i ∧ f.err ≠ 1)
    (hlocal : bufReceive ((s.packPtr.getD pack).stake (stakes i)) f = .ok (buf, out)) :
    ∃ s', receive s f = .ok (s', out) ∧ (∃ pack', s' = .created canId sn pack') ∧
      (s'.packPtr.getD pack).stake (stakes i) = buf ∧
      ∀ j, j ≠ i →
        (s'.packPtr.getD pack).stake (stakes j) = (s.packPtr.getD pack).stake (stakes j) := by
  obtain ⟨pack₁, rfl⟩ := hs
  obtain ⟨haddr, herr⟩ := hf
  have hadm : Admitted canId f := ⟨herr, by rw [haddr]; exact hother i⟩
  rw [← haddr] at hlocal
  obtain ⟨pack₂, hstep, hbuf, hothers⟩ := receive_admitted sn hadm hlocal
  refine ⟨_, hstep, ⟨pack₂, rfl⟩, by rw [← haddr]; exact hbuf, ?_⟩
  intro j hj
  apply hothers
  rw [haddr]
  exact fun heq => hj (hdistinct j i heq)

/-- Several senders with distinct seven-bit addresses, none of them the
receiver's, make any calls of 9 to 248 bytes. Whatever the receiver's buffers hold
and however the frames interleave, each frame pushes exactly what accompanies it:
the padded payload of its call at a tail frame, nothing at any other. -/
theorem senders_delivered {ι : Type} [DecidableEq ι] (senders : ι → LibCtos)
    (calls : ι → List PutCall) (canId sn : UInt8)
    (hseven : ∀ i, (senders i).canId.toNat < 128)
    (hdistinct : ∀ i j, (senders i).canId = (senders j).canId → i = j)
    (hother : ∀ i, (senders i).canId ≠ canId) (hfits : ∀ i, ∀ c ∈ calls i, c.Fits)
    (pack : StakeFrame) (l : List (CanFrameMetadata × Option (List UInt8)))
    (hl : Interleaving (fun i => emitted (senders i) (calls i)) l) :
    (∃ pack', run receive (.created canId sn pack) (l.map Prod.fst) =
      .ok (.created canId sn pack', l.map Prod.snd)) ∧
    ∀ i, pushes ((emitted (senders i) (calls i)).map Prod.snd) = (calls i).map PutCall.block := by
  refine ⟨?_, fun i => emitted_blocks (hfits i)⟩
  have haddr : ∀ i, (BitVec.ofNat 7 (senders i).canId.toNat).toNat = (senders i).canId.toNat :=
    fun i => Nat.mod_eq_of_lt (hseven i)
  have hstakes : ∀ i j, BitVec.ofNat 7 (senders i).canId.toNat =
      BitVec.ofNat 7 (senders j).canId.toNat → i = j := by
    intro i j heq
    have hnat := congrArg BitVec.toNat heq
    rw [haddr, haddr] at hnat
    exact hdistinct i j (UInt8.toNat_inj.mp hnat)
  have hreceiver : ∀ i, (BitVec.ofNat 7 (senders i).canId.toNat).toNat ≠ canId.toNat := by
    intro i heq
    rw [haddr] at heq
    exact hother i (UInt8.toNat_inj.mp heq)
  obtain ⟨t, ⟨pack', rfl⟩, hrun⟩ := run_interleaving
    (fun (s : LibCtos) i => (s.packPtr.getD pack).stake (BitVec.ofNat 7 (senders i).canId.toNat))
    (fun s => ∃ pack', s = LibCtos.created canId sn pack')
    (fun i f => f.sAddr = BitVec.ofNat 7 (senders i).canId.toNat ∧ f.err ≠ 1)
    (receive_component hstakes sn hreceiver pack) hl
    (fun i p hp => emitted_frame _ (hfits i) p hp) (LibCtos.created canId sn pack) ⟨pack, rfl⟩
    (fun i => run_emitted _ (hfits i) _)
  exact ⟨pack', hrun⟩

/-- Two senders, one message of two frames each, the second inside the first. -/
theorem senders_delivered_nested :
    ∃ l, Interleaving (fun i : Bool => emitted (idleHandle (if i then 1 else 2))
        [⟨3, fun _ => if i then 10 else 20, 9⟩]) l ∧
      ∃ pack', run receive (idleHandle 3) (l.map Prod.fst) =
        .ok (.created 3 0 pack', l.map Prod.snd) := by
  have hl : ∃ l, Interleaving (fun i : Bool => emitted (idleHandle (if i then 1 else 2))
      [⟨3, fun _ => if i then 10 else 20, 9⟩]) l :=
    ⟨_, .cons true _ _ rfl (.cons false _ _ rfl (.cons false _ _ rfl (.cons true _ _ rfl
      (.nil (by decide)))))⟩
  obtain ⟨l, hl⟩ := hl
  exact ⟨l, hl, (senders_delivered (fun i : Bool => idleHandle (if i then 1 else 2))
    (fun i => [⟨3, fun _ => if i then 10 else 20, 9⟩]) 3 0 (by decide) (by decide) (by decide)
    (by
      intro i c hc
      rw [List.mem_singleton.mp hc]
      exact ⟨show 9 ≤ 9 by decide, show 9 ≤ 248 by decide⟩) .zero l hl).1⟩

end BackupSoftware.Can
