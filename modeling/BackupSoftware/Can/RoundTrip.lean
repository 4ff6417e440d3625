import BackupSoftware.Can.Reassembly
import Mathlib.Data.List.TakeDrop

/-!
# One call and one receiver

Sender and receiver composed for a single `lib_ctos_put`: which payload sizes
survive the trip, and what becomes of payloads that fit a single frame.
-/

namespace BackupSoftware.Can

open BackupSoftware.Library.Bytes BackupSoftware.Library.Trace

theorem reassembled_put {writen : Nat → Bool} {sender : LibCtos} {destAddr : UInt8}
    {data : Nat → UInt8} {len : Nat} (h9 : 9 ≤ len) (h320 : len ≤ 320)
    (hret : (libCtosPut writen sender destAddr data len).2.2 = libCtosEok)
    {canId : UInt8} (hid : sender.canId.toNat % 128 ≠ canId.toNat) (sn : UInt8)
    (pack : StakeFrame) {blocks : List (List UInt8)} :
    Reassembled (.created canId sn pack) (libCtosPut writen sender destAddr data len).2.1 blocks ↔
      blocks = [(zeroPad8 (payload data len)).take (8 * frameCount len % 256)] := by
  have hn : frameCount len = (len + 7) / 8 := frameCount_eq len
  have hframes := putBody_frames sender destAddr data canPriorityLow h9 (putBody_eok h9 hret)
  rw [libCtosPut, hframes]
  have hsize : (messageOf sender destAddr data len canPriorityLow).size = frameCount len := rfl
  exact reassembled_message (messageOf sender destAddr data len canPriorityLow)
    (by omega) (by omega) hid sn pack

/-- The round trip restores the padded payload exactly up to 248 bytes: from 32
frames on the one-byte length counter of the receiver has wrapped. -/
theorem put_round_trip_iff (writen : Nat → Bool) (sender : LibCtos) (destAddr : UInt8)
    (data : Nat → UInt8) (len : Nat) (h9 : 9 ≤ len) (h320 : len ≤ 320)
    (hret : (libCtosPut writen sender destAddr data len).2.2 = libCtosEok)
    (canId sn : UInt8) (hid : sender.canId.toNat % 128 ≠ canId.toNat) (pack : StakeFrame) :
    Reassembled (.created canId sn pack) (libCtosPut writen sender destAddr data len).2.1
      [zeroPad8 (payload data len)] ↔ len ≤ 248 := by
  have hn : frameCount len = (len + 7) / 8 := frameCount_eq len
  have hlen : (zeroPad8 (payload data len)).length = 8 * frameCount len := by
    rw [length_zeroPad8, length_payload, hn]
  rw [reassembled_put h9 h320 hret hid sn pack, List.cons.injEq, eq_comm, List.take_eq_self_iff,
    hlen]
  constructor
  · intro h
    have := h.1
    omega
  · intro h; exact ⟨by omega, rfl⟩

theorem put_round_trip_nine_bytes :
    Reassembled (idleHandle 2) (libCtosPut (fun _ => true) (idleHandle 1) 2 (fun _ => 7) 9).2.1
      [zeroPad8 (payload (fun _ => 7) 9)] :=
  (put_round_trip_iff (fun _ => true) (idleHandle 1) 2 (fun _ => 7) 9 (by decide) (by decide) rfl
    2 0 (by decide) _).mpr (by decide)

/-- With 249 bytes the length counter has come back to zero. -/
theorem put_249_bytes_lost :
    (libCtosPut (fun _ => true) (idleHandle 1) 2 (fun _ => 7) 249).2.2 = libCtosEok ∧
    ¬ Reassembled (idleHandle 2)
      (libCtosPut (fun _ => true) (idleHandle 1) 2 (fun _ => 7) 249).2.1
      [zeroPad8 (payload (fun _ => 7) 249)] := by
  have hret : (libCtosPut (fun _ => true) (idleHandle 1) 2 (fun _ => 7) 249).2.2 = libCtosEok := by
    rw [libCtosPut, putBody_frames _ _ _ _ (by decide) (fun _ _ => rfl)]
  refine ⟨hret, ?_⟩
  rw [idleHandle, reassembled_put (by decide) (by decide) hret (by decide) 0 _]
  intro h
  have hl := congrArg (List.length ∘ List.flatten) h
  simp only [Function.comp_apply, List.flatten_cons, List.flatten_nil, List.append_nil,
    List.length_take, length_zeroPad8, length_payload, frameCount_eq] at hl
  omega

/-- The frames push exactly this block and leave no message of the stake pending. -/
def DeliveredAlone (ctos : LibCtos) (frames : List CanFrameMetadata) (id : BitVec 7)
    (block : List UInt8) : Prop :=
  ∃ ctos' pack outs, run receive ctos frames = .ok (ctos', outs) ∧ ctos'.packPtr = some pack ∧
    pushes outs = [block] ∧ (pack.stake id).hasFrameHead = 0

/-- The two frames of a payload of one to eight bytes, taken by a receiver that
admits them: the single frame pushes eight zero bytes and the head stays pending. -/
theorem run_short {sender : LibCtos} (destAddr : UInt8) (data : Nat → UInt8) {len : Nat}
    (priority : UInt8) {canId : UInt8} (h1 : 1 ≤ len) (h8 : len ≤ 8)
    (hid : sender.canId.toNat % 128 ≠ canId.toNat) (sn : UInt8) (pack : StakeFrame) :
    ∃ pack', run receive (.created canId sn pack)
        (putBody (fun _ => true) sender destAddr data len priority).2.1 =
        .ok (.created canId sn pack', [some (List.replicate 8 0), none]) ∧
      (pack'.stake (BitVec.ofNat 7 sender.canId.toNat)).hasFrameHead = 1 := by
  rw [putBody_short h1 h8]
  set single := frameInit (frameSnGet sender).2 destAddr (frameSnGet sender).1 priority 0
    with hsingle
  set head : CanFrameMetadata := { single with frameMark := .head, data := chunk data 0 8 }
    with hhead
  have hadm : ∀ f ∈ [single, head],
      Admitted canId f ∧ f.sAddr = BitVec.ofNat 7 sender.canId.toNat := by
    intro f hf
    simp only [List.mem_cons, List.not_mem_nil, or_false] at hf
    rcases hf with rfl | rfl
    · exact ⟨⟨by simp [hsingle, frameInit], hid⟩, rfl⟩
    · exact ⟨⟨by simp [hhead, hsingle, frameInit], hid⟩, rfl⟩
  have hfirst := bufReceive_single (pack.stake (BitVec.ofNat 7 sender.canId.toNat))
    (show single.frameMark = .single from rfl)
  have hsecond := bufReceive_head { pack.stake (BitVec.ofNat 7 sender.canId.toNat) with len := 8 }
    (show head.frameMark = .head from rfl)
  have hseq : head.frameSeq.toNat = 0 := rfl
  rw [hseq, if_pos (by decide)] at hsecond
  obtain ⟨pack', hrun, hbuf, -⟩ := run_receive sn hadm
    (run_cons_ok hfirst (run_cons_ok hsecond rfl))
  refine ⟨pack', ?_, by rw [hbuf]; rfl⟩
  rw [hrun]
  rfl

theorem not_deliveredAlone_short {sender : LibCtos} {destAddr : UInt8} {data : Nat → UInt8}
    {len : Nat} {priority canId : UInt8} (h1 : 1 ≤ len) (h8 : len ≤ 8) (sn : UInt8)
    (pack : StakeFrame) (block : List UInt8) :
    ¬ DeliveredAlone (.created canId sn pack)
      (putBody (fun _ => true) sender destAddr data len priority).2.1
      (BitVec.ofNat 7 sender.canId.toNat) block := by
  intro hdel
  obtain ⟨ctos', pack', outs, hrun, hpack, hpush, hhead⟩ := hdel
  by_cases hid : sender.canId.toNat % 128 = canId.toNat
  · rw [putBody_short h1 h8] at hrun
    have hnone : ∀ f ∈ [frameInit (frameSnGet sender).2 destAddr (frameSnGet sender).1 priority 0,
        { frameInit (frameSnGet sender).2 destAddr (frameSnGet sender).1 priority 0 with
          frameMark := .head, data := chunk data 0 8 }], ¬ Admitted canId f := by
      intro f hf
      simp only [List.mem_cons, List.not_mem_nil, or_false] at hf
      rcases hf with rfl | rfl <;> exact fun ha => ha.2 hid
    obtain ⟨pack₁, hrefused⟩ := run_receive_refused sn pack hnone
    rw [hrefused] at hrun
    cases hrun
    cases hpush
  · obtain ⟨pack₁, hshort, hpending⟩ := run_short destAddr data priority h1 h8 hid sn pack
    rw [hshort] at hrun
    cases hrun
    cases hpack
    rw [hpending] at hhead
    exact absurd hhead (by decide)

/-- A payload of one to eight bytes is never delivered, by neither put function. -/
theorem short_put_never_delivered (sender : LibCtos) (destAddr : UInt8) (data : Nat → UInt8)
    (len : Nat) (h1 : 1 ≤ len) (h8 : len ≤ 8) (priority canId sn : UInt8) (pack : StakeFrame) :
    ¬ DeliveredAlone (.created canId sn pack)
        (libCtosPut (fun _ => true) sender destAddr data len).2.1
        (BitVec.ofNat 7 sender.canId.toNat) (zeroPad8 (payload data len)) ∧
      ¬ DeliveredAlone (.created canId sn pack)
        (libCtosPutPriority (fun _ => true) sender destAddr data len priority).2.1
        (BitVec.ofNat 7 sender.canId.toNat) (zeroPad8 (payload data len)) :=
  ⟨not_deliveredAlone_short h1 h8 sn pack _, not_deliveredAlone_short h1 h8 sn pack _⟩

theorem short_put_five_bytes :
    ¬ DeliveredAlone (idleHandle 2) (libCtosPut (fun _ => true) (idleHandle 1) 2 (fun _ => 7) 5).2.1
        1 (zeroPad8 (payload (fun _ => 7) 5)) :=
  (short_put_never_delivered (idleHandle 1) 2 (fun _ => 7) 5 (by decide) (by decide) 0 2 0 _).1

/-- The payload 7, 7, 7, 7, 7: eight zero bytes arrive and a head stays pending. -/
theorem short_put_not_delivered :
    ¬ ∀ (sender : LibCtos) (destAddr : UInt8) (data : Nat → UInt8) (len : Nat), 1 ≤ len → len ≤ 8 →
      ∀ (canId sn : UInt8) (pack : StakeFrame), sender.canId.toNat % 128 ≠ canId.toNat →
      DeliveredAlone (.created canId sn pack)
        (libCtosPut (fun _ => true) sender destAddr data len).2.1
        (BitVec.ofNat 7 sender.canId.toNat) (zeroPad8 (payload data len)) := by
  intro h
  exact not_deliveredAlone_short (by decide) (by decide) 0 _ _
    (h (idleHandle 1) 2 (fun _ => 7) 5 (by decide) (by decide) 2 0
      StakeFrame.zero (by decide))

end BackupSoftware.Can
