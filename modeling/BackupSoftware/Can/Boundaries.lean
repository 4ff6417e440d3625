import BackupSoftware.Can.Senders

/-!
# Message boundaries in the byte queue

The reassembled blocks go through the ring buffer of the prebuilt general library
and are read back by `lib_ctos_get` in portions of a length that the reader
chooses. The ring buffer is a parameter; of it only its being a byte queue is used.
-/

namespace BackupSoftware.Can

open BackupSoftware.Library.Bytes BackupSoftware.Library.Trace

/-- The two operations of `lib_ringbuffer` that sending and reading use.
`getforce` returns its code and the bytes it stored at the caller's pointer. -/
structure RingBuffer (R : Type) where
  putforce : R → List UInt8 → R
  getforce : R → Nat → R × Int × List UInt8

/-- A byte queue with room for `capacity` bytes: `putforce` appends what fits and
`getforce` removes `min len available` bytes from the front. -/
structure RingBuffer.IsFifo {R : Type} (rb : RingBuffer R) (contents : R → List UInt8)
    (capacity : Nat) : Prop where
  putforce : ∀ r block, (contents r).length + block.length ≤ capacity →
    contents (rb.putforce r block) = contents r ++ block
  getforce_ret : ∀ r len, (rb.getforce r len).2.1 = ((min len (contents r).length : Nat) : Int)
  getforce_data : ∀ r len, (rb.getforce r len).2.2 = (contents r).take len
  getforce_contents : ∀ r len, contents (rb.getforce r len).1 = (contents r).drop len

/-- The bytes that a call sends. -/
def PutCall.package (c : PutCall) : List UInt8 := payload c.data c.len

theorem length_packages {len : Nat} {calls : List PutCall} (hlen : ∀ c ∈ calls, c.len = len) :
    ∀ p ∈ calls.map PutCall.package, p.length = len := by
  intro p hp
  obtain ⟨c, hc, rfl⟩ := List.mem_map.mp hp
  rw [PutCall.package, length_payload, hlen c hc]

section Reader

variable {R : Type} (rb : RingBuffer R)

/-- The code of `lib_ctos_get`, the bytes stored at `data` and the ring buffer after it. -/
def libCtosGet (ctos : LibCtos) (r : R) (len : Nat) : R × Int × List UInt8 :=
  if ctos.ringbuffer = false then (r, libCtosError, []) else rb.getforce r len

/-- The receiver takes one frame; after a push the reader calls `lib_ctos_get`. -/
def receiveAndGet (len : Nat) (s : LibCtos × R) (frame : CanFrameMetadata) :
    Except Fault ((LibCtos × R) × Option (Int × List UInt8)) := do
  let (ctos, out) ← receive s.1 frame
  match out with
  | none => return ((ctos, s.2), none)
  | some block =>
      let (r, got) := libCtosGet rb ctos (rb.putforce s.2 block) len
      return ((ctos, r), some got)

/-- After each push the reader gets the package just sent, whole and alone. -/
def BoundariesKept (len : Nat) (ctos : LibCtos) (r : R) (frames : List CanFrameMetadata)
    (packages : List (List UInt8)) : Prop :=
  ∃ s outs, run (receiveAndGet rb len) (ctos, r) frames = .ok (s, outs) ∧
    outs.filterMap id = packages.map fun p => ((len : Int), p)

def gets (len : Nat) : R → List (List UInt8) → List (Int × List UInt8)
  | _, [] => []
  | r, block :: blocks =>
      let (r, got) := rb.getforce (rb.putforce r block) len
      got :: gets len r blocks

variable {rb}

theorem run_receiveAndGet {canId sn : UInt8} {pack : StakeFrame} {frames : List CanFrameMetadata}
    {ctos' : LibCtos} {outs : List (Option (List UInt8))} (len : Nat) (r : R)
    (h : run receive (.created canId sn pack) frames = .ok (ctos', outs)) :
    ∃ r' outs', run (receiveAndGet rb len) (.created canId sn pack, r) frames =
      .ok ((ctos', r'), outs') ∧ outs'.filterMap id = gets rb len r (pushes outs) := by
  induction frames generalizing pack r outs with
  | nil =>
    obtain ⟨rfl, rfl⟩ := run_nil_iff.mp h
    exact ⟨r, [], rfl, rfl⟩
  | cons f frames ih =>
    obtain ⟨s', out, outs', hstep, hrest, rfl⟩ := run_cons_iff.mp h
    obtain ⟨⟨pack', rfl⟩, -⟩ := receive_step hstep
    cases out with
    | none =>
      obtain ⟨r', outs'', hrun, hgets⟩ := ih r hrest
      have hfirst : receiveAndGet rb len (.created canId sn pack, r) f =
          .ok ((.created canId sn pack', r), none) := by
        simp only [receiveAndGet, hstep]
        rfl
      exact ⟨r', none :: outs'', run_cons_ok hfirst hrun, hgets⟩
    | some block =>
      obtain ⟨r', outs'', hrun, hgets⟩ := ih (rb.getforce (rb.putforce r block) len).1 hrest
      have hfirst : receiveAndGet rb len (.created canId sn pack, r) f =
          .ok ((.created canId sn pack', (rb.getforce (rb.putforce r block) len).1),
            some (rb.getforce (rb.putforce r block) len).2) := by
        simp only [receiveAndGet, hstep]
        rfl
      exact ⟨r', _ :: outs'', run_cons_ok hfirst hrun, congrArg (_ :: ·) hgets⟩

theorem gets_eq_portions {contents : R → List UInt8} {capacity : Nat}
    (hfifo : rb.IsFifo contents capacity) {len : Nat} {fill : List UInt8}
    {ps : List (List UInt8)} (hp : ∀ p ∈ ps, p.length = len) (r : R)
    (hcap : (contents r).length + ps.length * (len + fill.length) ≤ capacity) :
    gets rb len r (ps.map (· ++ fill)) =
      (portions len fill (contents r) ps).map fun p => ((len : Int), p) := by
  induction ps generalizing r with
  | nil => rfl
  | cons p ps ih =>
    have hl : p.length = len := hp p List.mem_cons_self
    rw [List.length_cons, Nat.add_mul, Nat.one_mul] at hcap
    have hput : contents (rb.putforce r (p ++ fill)) = contents r ++ (p ++ fill) := by
      apply hfifo.putforce
      rw [List.length_append, hl]
      omega
    have hret : min len (contents r ++ (p ++ fill)).length = len := by
      rw [List.length_append, List.length_append]
      omega
    have hrest := ih (fun q hq => hp q (List.mem_cons_of_mem _ hq))
      (rb.getforce (rb.putforce r (p ++ fill)) len).1
      (by
        rw [hfifo.getforce_contents, hput, List.length_drop, List.length_append,
          List.length_append]
        omega)
    rw [hfifo.getforce_contents, hput] at hrest
    have hgot : (rb.getforce (rb.putforce r (p ++ fill)) len).2 =
        ((len : Int), (contents r ++ (p ++ fill)).take len) := by
      refine Prod.ext ?_ ?_
      · rw [hfifo.getforce_ret, hput, hret]
      · rw [hfifo.getforce_data, hput]
    simp only [List.map_cons, gets, portions]
    rw [hgot, hrest]

/-- Packages of one length are read back as the portions of a queue in which each
package is followed by its padding. -/
theorem boundariesKept_iff_portions {contents : R → List UInt8} {capacity : Nat}
    (hfifo : rb.IsFifo contents capacity) {len : Nat} (h9 : 9 ≤ len) (h248 : len ≤ 248)
    (sender : LibCtos) {calls : List PutCall} (hlen : ∀ c ∈ calls, c.len = len) {canId : UInt8}
    (sn : UInt8) (hid : sender.canId.toNat % 128 ≠ canId.toNat) (pack : StakeFrame) {r : R}
    (hr : contents r = []) (hcap : calls.length * (8 * frameCount len) ≤ capacity) :
    BoundariesKept rb len (.created canId sn pack) r (writes sender calls).flatten
        (calls.map PutCall.package) ↔
      portions len (List.replicate ((8 - len % 8) % 8) 0) [] (calls.map PutCall.package) =
        calls.map PutCall.package := by
  have hfits : ∀ c ∈ calls, c.Fits := by
    intro c hc
    rw [PutCall.Fits, hlen c hc]
    exact ⟨h9, h248⟩
  have hp := length_packages hlen
  have hblocks : calls.map PutCall.block =
      (calls.map PutCall.package).map (· ++ List.replicate ((8 - len % 8) % 8) 0) := by
    rw [List.map_map]
    apply List.map_congr_left
    intro c hc
    simp only [Function.comp_apply, PutCall.block, PutCall.package, zeroPad8, length_payload,
      hlen c hc]
  obtain ⟨buf, hbuf⟩ := run_emitted sender hfits
    (pack.stake (BitVec.ofNat 7 sender.canId.toNat))
  obtain ⟨pack', hrun, -⟩ := run_receive sn
    (by
      intro f hf
      obtain ⟨p, hp, rfl⟩ := List.mem_map.mp hf
      obtain ⟨haddr, herr⟩ := emitted_frame sender hfits p hp
      refine ⟨⟨herr, ?_⟩, haddr⟩
      rw [haddr]
      exact hid) hbuf
  obtain ⟨r', outs, hread, hgets⟩ := run_receiveAndGet len r hrun
  rw [emitted_blocks hfits, hblocks, gets_eq_portions hfifo hp r
    (by
      have hn : frameCount len = (len + 7) / 8 := frameCount_eq len
      have hpad : len + (8 - len % 8) % 8 = 8 * frameCount len := by omega
      rw [hr, List.length_nil, List.length_map, List.length_replicate, hpad, Nat.zero_add]
      exact hcap), hr] at hgets
  rw [emitted_frames] at hread
  have hinj : Function.Injective fun p : List UInt8 => ((len : Int), p) :=
    fun p q h => (Prod.mk.inj h).2
  constructor
  · intro hkept
    obtain ⟨s, outs', hread', hkept⟩ := hkept
    rw [hread] at hread'
    cases hread'
    rw [hgets] at hkept
    exact List.map_injective_iff.mpr hinj hkept
  · intro h
    exact ⟨_, outs, hread, by rw [hgets, h]⟩

end Reader

/-- Every read gives the package just sent exactly when the length of the packages is
a multiple of eight or all packages but the first are zeros: the padding of each
message stays in the queue and shifts all later reads. -/
theorem boundaries_kept_iff {R : Type} (rb : RingBuffer R) (contents : R → List UInt8)
    (capacity : Nat) (hfifo : rb.IsFifo contents capacity) (len : Nat) (h9 : 9 ≤ len)
    (h248 : len ≤ 248) (sender : LibCtos) (calls : List PutCall) (hlen : ∀ c ∈ calls, c.len = len)
    (canId sn : UInt8) (hid : sender.canId.toNat % 128 ≠ canId.toNat) (pack : StakeFrame) (r : R)
    (hr : contents r = []) (hcap : calls.length * (8 * frameCount len) ≤ capacity) :
    BoundariesKept rb len (.created canId sn pack) r (writes sender calls).flatten
        (calls.map PutCall.package) ↔
      8 ∣ len ∨ ∀ p ∈ (calls.map PutCall.package).tail, p = List.replicate len 0 := by
  have hp := length_packages hlen
  rw [boundariesKept_iff_portions hfifo h9 h248 sender hlen sn hid pack hr hcap]
  by_cases hd : 8 ∣ len
  · have hz : (8 - len % 8) % 8 = 0 := by omega
    rw [hz, List.replicate_zero]
    exact ⟨fun _ => Or.inl hd, fun _ => portions_exact hp⟩
  · rw [portions_fill_iff (by omega) hp]
    exact ⟨Or.inr, fun h => h.resolve_left hd⟩

def listQueue : RingBuffer (List UInt8) where
  putforce := fun r block => r ++ block
  getforce := fun r len => (r.drop len, ((min len r.length : Nat) : Int), r.take len)

theorem listQueue_isFifo (capacity : Nat) : listQueue.IsFifo id capacity where
  putforce := fun _ _ _ => rfl
  getforce_ret := fun _ _ => rfl
  getforce_data := fun _ _ => rfl
  getforce_contents := fun _ _ => rfl

/-- Two packages of sixteen bytes are read back. -/
theorem boundaries_kept_sixteen_bytes :
    BoundariesKept listQueue 16 (idleHandle 3) []
      (writes (idleHandle 1) [⟨3, fun _ => 1, 16⟩, ⟨3, fun _ => 2, 16⟩]).flatten
      [List.replicate 16 1, List.replicate 16 2] :=
  (boundaries_kept_iff listQueue id 1024 (listQueue_isFifo 1024) 16 (by decide) (by decide)
    (idleHandle 1) [⟨3, fun _ => 1, 16⟩, ⟨3, fun _ => 2, 16⟩] (by simp) 3 0 (by decide) .zero []
    rfl (by decide)).mpr (Or.inl ⟨2, rfl⟩)

/-- With the 106-byte packages of the test program the second read starts with the
six bytes of padding of the first message. -/
theorem boundaries_lost_106_bytes :
    ¬ ∀ (R : Type) (rb : RingBuffer R) (contents : R → List UInt8) (capacity : Nat),
      rb.IsFifo contents capacity → ∀ (len : Nat), 9 ≤ len → len ≤ 248 →
      ∀ (sender : LibCtos) (calls : List PutCall), (∀ c ∈ calls, c.len = len) →
      ∀ (canId sn : UInt8), sender.canId.toNat % 128 ≠ canId.toNat → ∀ (pack : StakeFrame) (r : R),
      contents r = [] → calls.length * (8 * frameCount len) ≤ capacity →
      BoundariesKept rb len (.created canId sn pack) r (writes sender calls).flatten
        (calls.map PutCall.package) := by
  intro h
  have hkept := h (List UInt8) listQueue id 1024 (listQueue_isFifo 1024) 106 (by decide)
    (by decide) (idleHandle 1) [⟨3, fun _ => 1, 106⟩, ⟨3, fun _ => 1, 106⟩] (by simp) 3 0
    (by decide) .zero [] rfl (by decide)
  rw [boundariesKept_iff_portions (listQueue_isFifo 1024) (by decide) (by decide) (idleHandle 1)
    (by simp) 0 (by decide) .zero rfl (by decide)] at hkept
  revert hkept
  decide

end BackupSoftware.Can
