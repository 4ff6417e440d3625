import Mathlib.Data.List.GetD
import BackupSoftware.Library.Descriptors
import BackupSoftware.Sha204.Command

/-!
# Sessions with the SHA204 chip

The commands of `sha204_test/sha204_command.c` over the bus of `i2c_common.c`, and the two
calls that the library offers: `LIB_Encry_Verify` and `read_device_info`. Whatever is at the
other end of the bus, the program only writes a few kinds of messages. After a verification
that succeeds the descriptor stays open for the next call, which opens one of its own.
-/

namespace BackupSoftware.Sha204

open BackupSoftware.Library

def sha204Normal : UInt8 := 0x03

/-- The bytes of `buf` when it is written: the checksum covers what follows the first. -/
def packet (count op arg1 arg2Low arg2High : UInt8) (data : List UInt8) : List UInt8 :=
  let buf := [sha204Normal, count, op, arg1, arg2Low, arg2High] ++ data
  let crc16 := sha204CalculateCrc (UInt8.ofNat (buf.length - 1)) ((buf.drop 1).getD · 0)
  buf ++ [crc16.1, crc16.2]

/-- What a packet asks for. -/
structure Request where
  op : UInt8
  arg1 : UInt8
  arg2Low : UInt8
  arg2High : UInt8
  data : List UInt8
  deriving DecidableEq, Repr

/-- The request in a packet whose count and checksum are right. -/
def decode : List UInt8 → Option Request
  | flag :: count :: op :: arg1 :: arg2Low :: arg2High :: rest =>
      let counted := [count, op, arg1, arg2Low, arg2High] ++ rest
      let checked := counted.take (counted.length - 2)
      if flag = sha204Normal ∧ count.toNat = counted.length ∧ 2 ≤ rest.length ∧
          counted.drop (counted.length - 2) = [(checksum checked).1, (checksum checked).2] then
        some ⟨op, arg1, arg2Low, arg2High, rest.take (rest.length - 2)⟩
      else none
  | _ => none

def Request.packet (r : Request) : List UInt8 :=
  Sha204.packet (UInt8.ofNat (7 + r.data.length)) r.op r.arg1 r.arg2Low r.arg2High r.data

theorem length_packet (r : Request) : r.packet.length = r.data.length + 8 := by
  simp only [Request.packet, packet, List.length_append, List.length_cons, List.length_nil]
  omega

/-- A packet of at most 128 bytes is decoded to the request it was made for. -/
theorem decode_packet (r : Request) (hlen : r.data.length ≤ 120) :
    decode r.packet = some r := by
  obtain ⟨op, arg1, arg2Low, arg2High, data⟩ := r
  have hcount : (UInt8.ofNat (7 + data.length)).toNat = 7 + data.length :=
    UInt8.toNat_ofNat_of_lt' (Nat.lt_of_le_of_lt (Nat.add_le_add_left hlen 7) (by decide))
  generalize hcrc : checksum ([UInt8.ofNat (7 + data.length), op, arg1, arg2Low, arg2High] ++ data) =
    crc
  have hpacket : Request.packet ⟨op, arg1, arg2Low, arg2High, data⟩ =
      sha204Normal :: UInt8.ofNat (7 + data.length) :: op :: arg1 :: arg2Low :: arg2High ::
        (data ++ [crc.1, crc.2]) := by
    rw [← hcrc]
    rfl
  have htake : ([UInt8.ofNat (7 + data.length), op, arg1, arg2Low, arg2High] ++
      (data ++ [crc.1, crc.2])).take (7 + data.length - 2) =
        [UInt8.ofNat (7 + data.length), op, arg1, arg2Low, arg2High] ++ data := by
    rw [← List.append_assoc]
    apply List.take_left'
    simp only [List.length_append, List.length_cons, List.length_nil]
    omega
  have hdrop : ([UInt8.ofNat (7 + data.length), op, arg1, arg2Low, arg2High] ++
      (data ++ [crc.1, crc.2])).drop (7 + data.length - 2) = [crc.1, crc.2] := by
    rw [← List.append_assoc]
    apply List.drop_left'
    simp only [List.length_append, List.length_cons, List.length_nil]
    omega
  have hcounted : ([UInt8.ofNat (7 + data.length), op, arg1, arg2Low, arg2High] ++
      (data ++ [crc.1, crc.2])).length = 7 + data.length := by
    simp only [List.length_append, List.length_cons, List.length_nil]
    omega
  have hrest : (data ++ [crc.1, crc.2]).length = data.length + 2 := List.length_append
  rw [hpacket, decode]
  simp only [hcounted, htake, hdrop, hcrc, hcount]
  rw [if_pos ⟨trivial, trivial, by omega, trivial⟩, hrest, Nat.add_sub_cancel, List.take_left' rfl]

/-- What is at the other end of the system calls: how it answers, from state to state.
`ioctl` tells if the call succeeds; of what `read` yields the call takes at most as many
bytes as it asked for. -/
structure Device (σ : Type) where
  opens : σ → Bool × σ
  ioctl : σ → Bool × σ
  write : σ → List UInt8 → Int × σ
  read : σ → Nat → Option (List UInt8) × σ

/-- The process: the device, its open descriptors and the global `fd`. `written` are the
messages written so far, and `refused` counts the failures of `ioctl`. -/
structure Proc (σ : Type) where
  device : σ
  fds : Finset Nat
  fd : Int
  written : List (List UInt8)
  refused : Nat

section Bus

variable {σ : Type} (d : Device σ)

def write (p : Proc σ) (bytes : List UInt8) : Int × Proc σ :=
  ((d.write p.device bytes).1,
    { p with device := (d.write p.device bytes).2, written := p.written ++ [bytes] })

def read (p : Proc σ) (count : Nat) : Option (List UInt8) × Proc σ :=
  ((d.read p.device count).1.map (·.take count), { p with device := (d.read p.device count).2 })

/-- `i2c_dev_init`, whose result is assigned to `fd`. If `ioctl` fails the descriptor stays
open. -/
def i2cDevInit (p : Proc σ) : Proc σ :=
  let (opened, s) := d.opens p.device
  if opened then
    let fds := insert (Descriptors.lowest p.fds) p.fds
    let (set, s) := d.ioctl s
    if set then { p with device := s, fds := fds, fd := Descriptors.lowest p.fds }
    else { p with device := s, fds := fds, fd := -2, refused := p.refused + 1 }
  else { p with device := s, fd := -1 }

/-- `close(fd)`. -/
def closeFd (p : Proc σ) : Proc σ := { p with fds := Descriptors.close p.fds p.fd }

def writeChip (p : Proc σ) (buff : List UInt8) (addr : UInt8) : Int × Proc σ :=
  write d p (addr :: buff)

/-- `none` is -1. -/
def readChip (p : Proc σ) (addr : UInt8) (count : Nat) : Option (List UInt8) × Proc σ :=
  let (ret, p) := write d p [addr]
  if ret ≠ 1 then (none, p) else read d p count

def sha204Wakeup (p : Proc σ) : Int × Proc σ :=
  let (_, p) := writeChip d p [0] 0
  let (rddata, p) := readChip d p 0 4
  match rddata with
  | some bytes =>
      if bytes.length ≠ 4 then (-1, p)
      else if bytes.getD 1 0 ≠ 0x11 then (-2, p)
      else (0, p)
  | none => (-1, p)

/-- What the commands have in common: `buf` is written, and `size` bytes are read back. -/
def exchange (p : Proc σ) (buf : List UInt8) (addr : UInt8) (size : Nat) :
    Except Int (List UInt8) × Proc σ :=
  let (ret, p) := writeChip d p buf addr
  if ret ≠ buf.length + 1 then (.error (-1), p)
  else
    let (rddata, p) := readChip d p 0 size
    match rddata with
    | some bytes => if bytes.length ≠ size then (.error (-2), p) else (.ok bytes, p)
    | none => (.error (-2), p)

/-- What a command returns, 0 when it has succeeded. -/
def status {α : Type} : Except Int α → Int
  | .ok _ => 0
  | .error ret => ret

/-- `sha204_random`; the result with what is copied to `rxbuf`. -/
def sha204Random (p : Proc σ) (mode : UInt8) : Except Int (List UInt8) × Proc σ :=
  let (r, p) := exchange d p (packet 7 0x1B mode 0x00 0x00 []) 0 35
  (r.map fun rddata => (rddata.drop 1).take 32, p)

def sha204Mac (p : Proc σ) (mode : UInt8) (slotId : UInt16) (challenge : Vector UInt8 32) :
    Except Int (List UInt8) × Proc σ :=
  exchange d p (packet (7 + 32) 0x08 mode (slotId &&& 0xff).toUInt8 (slotId >>> 8).toUInt8
    challenge.toList) 0 35

/-- `sha204_read`, for a `size` that fits into `rddata`. It passes the address of its variable
`addr`, and `addr` is here the lowest byte of that, as in the commands that follow. -/
def sha204Read (p : Proc σ) (addr : UInt8) (size : Fin 129) (zone : UInt8) (address : UInt16) :
    Except Int (List UInt8) × Proc σ :=
  exchange d p (packet 7 0x02 zone (address &&& 0x007F).toUInt8 0x00 []) addr size

def sha204UpdateExtra (p : Proc σ) (addr : UInt8) : Int × Proc σ :=
  let (r, p) := exchange d p (packet 0x07 0x20 0x00 0x22 0x00 []) addr 35
  (status r, p)

def sha204Write (p : Proc σ) (addr : UInt8) : Int × Proc σ :=
  let (r, p) := exchange d p (packet 0x0b 0x12 0x00 0x0c 0x00 [0xC2, 0x42, 0xAF, 0x8F]) addr 35
  (status r, p)

def sha204Nonce (p : Proc σ) (addr : UInt8) : Int × Proc σ :=
  let (r, p) := exchange d p (packet 0x07 0x16 0x02 0x00 0x00 []) addr 35
  (status r, p)

/-- `sha204_command_test`; the result with what is copied to `rxbuf`. -/
def sha204CommandTest (p : Proc σ) (addr : UInt8) : Except Int (List UInt8) × Proc σ :=
  let (r, p) := exchange d p (packet 0x07 0x15 0x01 0x00 0x00 []) addr 35
  (r.map fun rddata => (rddata.drop 1).take 32, p)

def macResponseExpected : List UInt8 :=
  [35,
    0x6a, 0xaf, 0x4b, 0x30, 0xbd, 0xfa, 0xd1, 0x8c, 0xfb, 0xa2, 0x9d, 0xbe, 0xec, 0xc1, 0xf8, 0x19,
    0x9b, 0xce, 0x7e, 0xf3, 0x2b, 0x81, 0x61, 0xd5, 0x22, 0x5b, 0x83, 0x27, 0xdb, 0x8f, 0x7e, 0xcd,
    0x12, 0x8a]

def verifyChallenge : Vector UInt8 32 :=
  #v[0x2d, 0xce, 0x04, 0x63, 0x36, 0x5c, 0x17, 0xad, 0x02, 0xe8, 0x62, 0xc6, 0x20, 0x75, 0xc7, 0x2f,
    0x5f, 0x4a, 0x98, 0x8f, 0x40, 0xe1, 0xe9, 0xda, 0x9f, 0x3d, 0x4b, 0x4d, 0x5e, 0x06, 0x10, 0x4f]

def libWakeUpSuccess : Int := 0
def libEvOk : Int := 1
def libEvErr : Int := 2

/-- `LIB_Encry_Verify`. -/
def libEncryVerify (p : Proc σ) : Int × Proc σ :=
  let p := i2cDevInit d p
  if p.fd < 0 then (libEvErr, closeFd p)
  else
    let (ret, p) := sha204Wakeup d p
    if ret < 0 then (libEvErr, closeFd p)
    else
      let (mac, p) := sha204Mac d p 0x20 0 verifyChallenge
      match mac with
      | .error _ => (libEvErr, closeFd p)
      | .ok macResponse =>
          if macResponse = macResponseExpected then (libEvOk, p)
          else (libWakeUpSuccess, closeFd p)

/-- `read_device_info`; with what is copied to `device_info`. -/
def readDeviceInfo (p : Proc σ) (isNull : Bool) (addr : UInt8) :
    Int × Option (List UInt8) × Proc σ :=
  if isNull then (-1, none, p)
  else
    let p := i2cDevInit d p
    if p.fd < 0 then (libEvErr, none, closeFd p)
    else
      let (ret, p) := sha204Wakeup d p
      if ret < 0 then (libEvErr, none, closeFd p)
      else
        let (r, p) := sha204Read d p addr 35 (0x02 ||| 0x80) 0x00
        match r with
        | .error _ => (libEvErr, none, closeFd p)
        | .ok rxBuf => (35 - 3, some ((rxBuf.drop 1).take 32), closeFd p)

/-- A call of the library, or of one of the commands on the descriptor that the library has opened.
Reads of more than 128 bytes, which overrun `rddata`, are left out. -/
inductive Call where
  | verify
  | readDeviceInfo (isNull : Bool) (addr : UInt8)
  | wakeup
  | random (mode : UInt8)
  | mac (mode : UInt8) (slotId : UInt16) (challenge : Vector UInt8 32)
  | read (addr : UInt8) (size : Fin 129) (zone : UInt8) (address : UInt16)
  | updateExtra (addr : UInt8)
  | write (addr : UInt8)
  | nonce (addr : UInt8)
  | commandTest (addr : UInt8)
  deriving DecidableEq

def call (p : Proc σ) : Call → Int × Proc σ
  | .verify => libEncryVerify d p
  | .readDeviceInfo isNull addr =>
      ((readDeviceInfo d p isNull addr).1, (readDeviceInfo d p isNull addr).2.2)
  | .wakeup => sha204Wakeup d p
  | .random mode => (status (sha204Random d p mode).1, (sha204Random d p mode).2)
  | .mac mode slotId challenge =>
      (status (sha204Mac d p mode slotId challenge).1, (sha204Mac d p mode slotId challenge).2)
  | .read addr size zone address =>
      let (r, p) := sha204Read d p addr size zone address
      (match r with | .ok _ => size.val | .error ret => ret, p)
  | .updateExtra addr => sha204UpdateExtra d p addr
  | .write addr => sha204Write d p addr
  | .nonce addr => sha204Nonce d p addr
  | .commandTest addr =>
      (status (sha204CommandTest d p addr).1, (sha204CommandTest d p addr).2)

/-- The calls with what they return, and the process after them. -/
def calls : List Call → Proc σ → List (Call × Int) × Proc σ
  | [], p => ([], p)
  | c :: cs, p =>
      let (ret, p) := call d p c
      let (rets, p) := calls cs p
      ((c, ret) :: rets, p)

/-- What a call asks the chip for. -/
def Call.request : Call → Option Request
  | .verify => some ⟨0x08, 0x20, 0x00, 0x00, verifyChallenge.toList⟩
  | .readDeviceInfo isNull _ => if isNull then none else some ⟨0x02, 0x82, 0x00, 0x00, []⟩
  | .wakeup => none
  | .random mode => some ⟨0x1B, mode, 0x00, 0x00, []⟩
  | .mac mode slotId challenge =>
      some ⟨0x08, mode, (slotId &&& 0xff).toUInt8, (slotId >>> 8).toUInt8, challenge.toList⟩
  | .read _ _ zone address => some ⟨0x02, zone, (address &&& 0x007F).toUInt8, 0x00, []⟩
  | .updateExtra _ => some ⟨0x20, 0x00, 0x22, 0x00, []⟩
  | .write _ => some ⟨0x12, 0x00, 0x0c, 0x00, [0xC2, 0x42, 0xAF, 0x8F]⟩
  | .nonce _ => some ⟨0x16, 0x02, 0x00, 0x00, []⟩
  | .commandTest _ => some ⟨0x15, 0x01, 0x00, 0x00, []⟩

/-- The requests in the packets among messages; the first byte of a message is an address. -/
def requests (l : List (List UInt8)) : List Request := l.filterMap fun m => decode m.tail

/-- The two zeros that wake the chip, the address before a read, or a packet that fits into the
129 bytes of `sendbuffer`. -/
def Expected (m : List UInt8) : Prop :=
  m = [0, 0] ∨ m = [0] ∨ (decode m.tail).isSome ∧ m.length ≤ 129

/-- A conversation over the bus: descriptors and counters are kept, only expected messages
are written, and of the requests given each is sent once at most, in their order. -/
structure Talks (rs : List Request) (p q : Proc σ) : Prop where
  fds : q.fds = p.fds
  fd : q.fd = p.fd
  refused : q.refused = p.refused
  written : ∃ l, q.written = p.written ++ l ∧ (∀ m ∈ l, Expected m) ∧ (requests l).Sublist rs

theorem requests_append (l l' : List (List UInt8)) :
    requests (l ++ l') = requests l ++ requests l' := List.filterMap_append

theorem Talks.refl (rs : List Request) (p : Proc σ) : Talks rs p p :=
  ⟨rfl, rfl, rfl, [], (List.append_nil _).symm, fun _ hm => absurd hm List.not_mem_nil,
    List.nil_sublist rs⟩

theorem Talks.trans {rs rs' : List Request} {p q r : Proc σ} (h : Talks rs p q)
    (h' : Talks rs' q r) : Talks (rs ++ rs') p r := by
  obtain ⟨l, hl, hexp, hsub⟩ := h.written
  obtain ⟨l', hl', hexp', hsub'⟩ := h'.written
  refine ⟨h'.fds.trans h.fds, h'.fd.trans h.fd, h'.refused.trans h.refused, l ++ l', ?_, ?_, ?_⟩
  · rw [hl', hl, List.append_assoc]
  · intro m hm
    rcases List.mem_append.mp hm with hm | hm
    · exact hexp m hm
    · exact hexp' m hm
  · rw [requests_append]
    exact hsub.append hsub'

theorem write_talks (p : Proc σ) {bytes : List UInt8} (h : bytes = [0, 0] ∨ bytes = [0]) :
    Talks [] p (write d p bytes).2 := by
  refine ⟨rfl, rfl, rfl, [bytes], rfl, fun m hm => ?_, ?_⟩
  · rw [List.mem_singleton.mp hm]
    exact h.imp_right Or.inl
  · rcases h with rfl | rfl <;> exact List.Sublist.refl _

theorem write_packet_talks (p : Proc σ) (addr : UInt8) {r : Request} (hlen : r.data.length ≤ 120) :
    Talks [r] p (write d p (addr :: r.packet)).2 := by
  have hdecode := decode_packet r hlen
  refine ⟨rfl, rfl, rfl, [addr :: r.packet], rfl, fun m hm => ?_, ?_⟩
  · rw [List.mem_singleton.mp hm]
    refine Or.inr (Or.inr ⟨by rw [List.tail_cons, hdecode, Option.isSome_some], ?_⟩)
    rw [List.length_cons, length_packet]
    omega
  · rw [requests, List.filterMap_cons_some (by rw [List.tail_cons, hdecode])]
    exact List.Sublist.refl _

theorem read_talks (p : Proc σ) (count : Nat) : Talks [] p (read d p count).2 :=
  ⟨rfl, rfl, rfl, (Talks.refl [] p).written⟩

theorem readChip_talks (p : Proc σ) (count : Nat) : Talks [] p (readChip d p 0 count).2 := by
  have haddr : Talks [] p (write d p [0]).2 := write_talks d p (Or.inr rfl)
  rw [readChip]
  simp only
  split
  · exact haddr
  · exact haddr.trans (read_talks d _ count)

theorem sha204Wakeup_talks (p : Proc σ) : Talks [] p (sha204Wakeup d p).2 := by
  have hwake : Talks [] p (writeChip d p [0] 0).2 := write_talks d p (Or.inl rfl)
  have hread := hwake.trans (readChip_talks d (writeChip d p [0] 0).2 4)
  rw [sha204Wakeup]
  simp only
  split
  · split
    · exact hread
    · split
      · exact hread
      · exact hread
  · exact hread

theorem exchange_talks (p : Proc σ) (addr : UInt8) {r : Request} (hlen : r.data.length ≤ 120)
    (size : Nat) : Talks [r] p (exchange d p r.packet addr size).2 := by
  have hcommand : Talks [r] p (writeChip d p r.packet addr).2 := write_packet_talks d p addr hlen
  have hread := hcommand.trans (readChip_talks d (writeChip d p r.packet addr).2 size)
  rw [exchange]
  simp only
  split
  · exact hcommand
  · split
    · split
      · exact hread
      · exact hread
    · exact hread

theorem sha204Mac_talks (p : Proc σ) (mode : UInt8) (slotId : UInt16)
    (challenge : Vector UInt8 32) :
    Talks (Call.mac mode slotId challenge).request.toList p (sha204Mac d p mode slotId challenge).2 := by
  have hlen : challenge.toList.length = 32 := Vector.length_toList
  have htalks := exchange_talks d p 0
    (r := ⟨0x08, mode, (slotId &&& 0xff).toUInt8, (slotId >>> 8).toUInt8, challenge.toList⟩)
    (by rw [hlen]; decide) 35
  rw [Request.packet, hlen] at htalks
  exact htalks

theorem sha204Read_talks (p : Proc σ) (addr : UInt8) (size : Fin 129) (zone : UInt8)
    (address : UInt16) : Talks (Call.read addr size zone address).request.toList p
      (sha204Read d p addr size zone address).2 :=
  exchange_talks d p addr
    (r := ⟨0x02, zone, (address &&& 0x007F).toUInt8, 0x00, []⟩) (Nat.zero_le 120) size

theorem i2cDevInit_cases (p : Proc σ) :
    (i2cDevInit d p).written = p.written ∧
      (((i2cDevInit d p).fd < 0 ∧ (i2cDevInit d p).fds = p.fds ∧
          (i2cDevInit d p).refused = p.refused) ∨
        ((i2cDevInit d p).fd < 0 ∧ (i2cDevInit d p).refused = p.refused + 1 ∧
          (i2cDevInit d p).fds = insert (Descriptors.lowest p.fds) p.fds) ∨
        ((i2cDevInit d p).fd = Descriptors.lowest p.fds ∧ (i2cDevInit d p).refused = p.refused ∧
          (i2cDevInit d p).fds = insert (Descriptors.lowest p.fds) p.fds)) := by
  rw [i2cDevInit]
  simp only
  split
  · split
    · exact ⟨rfl, Or.inr (Or.inr ⟨rfl, rfl, rfl⟩)⟩
    · exact ⟨rfl, Or.inr (Or.inl ⟨show (-2 : Int) < 0 by decide, rfl, rfl⟩)⟩
  · exact ⟨rfl, Or.inl ⟨show (-1 : Int) < 0 by decide, rfl, rfl⟩⟩

/-- What a call does to the process: every descriptor that was open stays open, `n` more are
left besides those of failures of `ioctl`, and the chip is sent requests of `rs`. -/
structure Balanced (n : Nat) (rs : List Request) (p q : Proc σ) : Prop where
  kept : p.fds ⊆ q.fds
  left : q.fds.card + p.refused = p.fds.card + q.refused + n
  written : ∃ l, q.written = p.written ++ l ∧ (∀ m ∈ l, Expected m) ∧ (requests l).Sublist rs

theorem Talks.balanced {rs : List Request} {p q : Proc σ} (h : Talks rs p q) : Balanced 0 rs p q :=
  ⟨by rw [h.fds], by rw [h.fds, h.refused, Nat.add_zero], h.written⟩

theorem Balanced.trans {n n' : Nat} {rs rs' : List Request} {p q r : Proc σ}
    (h : Balanced n rs p q) (h' : Balanced n' rs' q r) : Balanced (n + n') (rs ++ rs') p r := by
  obtain ⟨l, hl, hexp, hsub⟩ := h.written
  obtain ⟨l', hl', hexp', hsub'⟩ := h'.written
  have hleft := h.left
  have hleft' := h'.left
  refine ⟨h.kept.trans h'.kept, by omega, l ++ l', ?_, ?_, ?_⟩
  · rw [hl', hl, List.append_assoc]
  · intro m hm
    rcases List.mem_append.mp hm with hm | hm
    · exact hexp m hm
    · exact hexp' m hm
  · rw [requests_append]
    exact hsub.append hsub'

/-- A call that fails because there is no usable descriptor. -/
theorem balanced_unopened {p : Proc σ} (h : (i2cDevInit d p).fd < 0) (rs : List Request) :
    Balanced 0 rs p (closeFd (i2cDevInit d p)) := by
  obtain ⟨hwritten, hcases⟩ := i2cDevInit_cases d p
  have hclosed : (closeFd (i2cDevInit d p)).fds = (i2cDevInit d p).fds :=
    Descriptors.close_negative _ h
  have hcard := Descriptors.card_opened p.fds
  refine ⟨?_, ?_, [], ?_, fun m hm => absurd hm List.not_mem_nil, List.nil_sublist rs⟩
  · rw [hclosed]
    rcases hcases with ⟨-, hfds, -⟩ | ⟨-, -, hfds⟩ | ⟨-, -, hfds⟩
    · rw [hfds]
    · rw [hfds]
      exact Finset.subset_insert _ _
    · rw [hfds]
      exact Finset.subset_insert _ _
  · rw [hclosed, Nat.add_zero]
    show _ = _ + (i2cDevInit d p).refused
    rcases hcases with ⟨-, hfds, hrefused⟩ | ⟨-, hrefused, hfds⟩ | ⟨hfd, -, -⟩
    · rw [hfds, hrefused]
    · rw [hfds, hrefused]
      omega
    · omega
  · rw [List.append_nil]
    exact hwritten

theorem opened {p : Proc σ} (h : ¬ (i2cDevInit d p).fd < 0) :
    (i2cDevInit d p).fd = Descriptors.lowest p.fds ∧ (i2cDevInit d p).refused = p.refused ∧
      (i2cDevInit d p).fds = insert (Descriptors.lowest p.fds) p.fds ∧
      (i2cDevInit d p).written = p.written := by
  obtain ⟨hwritten, hcases⟩ := i2cDevInit_cases d p
  rcases hcases with ⟨hfd, -, -⟩ | ⟨hfd, -, -⟩ | ⟨hfd, hrefused, hfds⟩
  · exact absurd hfd h
  · exact absurd hfd h
  · exact ⟨hfd, hrefused, hfds, hwritten⟩

/-- A call that closes its descriptor again. -/
theorem balanced_closed {rs : List Request} {p q : Proc σ} (h : ¬ (i2cDevInit d p).fd < 0)
    (hq : Talks rs (i2cDevInit d p) q) : Balanced 0 rs p (closeFd q) := by
  obtain ⟨hfd, hrefused, hfds, hwritten⟩ := opened d h
  have hclosed : (closeFd q).fds = p.fds := by
    show Descriptors.close q.fds q.fd = p.fds
    rw [hq.fds, hq.fd, hfds, hfd, Descriptors.close_opened]
  obtain ⟨l, hl, hmessages⟩ := hq.written
  rw [hwritten] at hl
  refine ⟨by rw [hclosed], ?_, l, hl, hmessages⟩
  rw [hclosed, Nat.add_zero]
  show _ = _ + q.refused
  rw [hq.refused, hrefused]

/-- A call that leaves its descriptor open. -/
theorem balanced_open {rs : List Request} {p q : Proc σ} (h : ¬ (i2cDevInit d p).fd < 0)
    (hq : Talks rs (i2cDevInit d p) q) : Balanced 1 rs p q := by
  obtain ⟨-, hrefused, hfds, hwritten⟩ := opened d h
  have hcard := Descriptors.card_opened p.fds
  obtain ⟨l, hl, hmessages⟩ := hq.written
  rw [hwritten] at hl
  refine ⟨?_, ?_, l, hl, hmessages⟩
  · rw [hq.fds, hfds]
    exact Finset.subset_insert _ _
  · rw [hq.fds, hfds, hq.refused, hrefused]
    omega

/-- How many descriptors a call leaves behind when it has succeeded. -/
def leaves (c : Call × Int) : Nat := if c = (.verify, libEvOk) then 1 else 0

theorem libEncryVerify_balanced (p : Proc σ) :
    Balanced (leaves (.verify, (libEncryVerify d p).1)) Call.verify.request.toList p
      (libEncryVerify d p).2 := by
  rw [libEncryVerify]
  simp only
  split
  · rename_i h
    exact balanced_unopened d h _
  · rename_i h
    have hwake := sha204Wakeup_talks d (i2cDevInit d p)
    split
    · exact balanced_closed d h (hwake.trans (Talks.refl _ _))
    · have hmac := hwake.trans (sha204Mac_talks d (sha204Wakeup d (i2cDevInit d p)).2 0x20 0
        verifyChallenge)
      split
      · exact balanced_closed d h hmac
      · split
        · exact balanced_open d h hmac
        · exact balanced_closed d h hmac

theorem readDeviceInfo_balanced (p : Proc σ) (isNull : Bool) (addr : UInt8) :
    Balanced 0 (Call.readDeviceInfo isNull addr).request.toList p
      (readDeviceInfo d p isNull addr).2.2 := by
  rw [readDeviceInfo]
  simp only
  cases isNull with
  | true => exact (Talks.refl _ p).balanced
  | false =>
    rw [if_neg Bool.false_ne_true]
    split
    · rename_i h
      exact balanced_unopened d h _
    · rename_i h
      have hwake := sha204Wakeup_talks d (i2cDevInit d p)
      split
      · exact balanced_closed d h (hwake.trans (Talks.refl _ _))
      · have hread := hwake.trans (sha204Read_talks d (sha204Wakeup d (i2cDevInit d p)).2 addr 35
          (0x02 ||| 0x80) 0x00)
        split
        · exact balanced_closed d h hread
        · exact balanced_closed d h hread

theorem call_balanced (p : Proc σ) (c : Call) :
    Balanced (leaves (c, (call d p c).1)) c.request.toList p (call d p c).2 := by
  cases c with
  | verify => exact libEncryVerify_balanced d p
  | readDeviceInfo isNull addr => exact readDeviceInfo_balanced d p isNull addr
  | wakeup => exact (sha204Wakeup_talks d p).balanced
  | random mode =>
    exact (exchange_talks d p 0 (r := ⟨0x1B, mode, 0x00, 0x00, []⟩) (Nat.zero_le 120) 35).balanced
  | mac mode slotId challenge => exact (sha204Mac_talks d p mode slotId challenge).balanced
  | read addr size zone address => exact (sha204Read_talks d p addr size zone address).balanced
  | updateExtra addr =>
    exact (exchange_talks d p addr (r := ⟨0x20, 0x00, 0x22, 0x00, []⟩) (Nat.zero_le 120) 35).balanced
  | write addr =>
    exact (exchange_talks d p addr
      (r := ⟨0x12, 0x00, 0x0c, 0x00, [0xC2, 0x42, 0xAF, 0x8F]⟩) (by decide) 35).balanced
  | nonce addr =>
    exact (exchange_talks d p addr (r := ⟨0x16, 0x02, 0x00, 0x00, []⟩) (Nat.zero_le 120) 35).balanced
  | commandTest addr =>
    exact (exchange_talks d p addr (r := ⟨0x15, 0x01, 0x00, 0x00, []⟩) (Nat.zero_le 120) 35).balanced

theorem calls_balanced (cs : List Call) (p : Proc σ) :
    Balanced ((calls d cs p).1.map leaves).sum (cs.filterMap Call.request) p (calls d cs p).2 := by
  induction cs generalizing p with
  | nil => exact (Talks.refl [] p).balanced
  | cons c cs ih =>
    have hcons : (c :: cs).filterMap Call.request =
        c.request.toList ++ cs.filterMap Call.request := by
      cases h : c.request with
      | none => rw [List.filterMap_cons_none h, Option.toList_none, List.nil_append]
      | some r => rw [List.filterMap_cons_some h, Option.toList_some, List.singleton_append]
    rw [hcons]
    exact (call_balanced d p c).trans (ih (call d p c).2)

theorem sum_leaves (l : List (Call × Int)) : (l.map leaves).sum = l.count (.verify, libEvOk) := by
  induction l with
  | nil => rfl
  | cons c l ih =>
    rw [List.map_cons, List.sum_cons, ih, List.count_cons, leaves, Nat.add_comm]
    simp only [beq_iff_eq]

/-- In every sequence of calls, whatever the device answers: all descriptors that were open
before stay open, one more is left for every verification that succeeded and for every
`ioctl` that failed, and none else. -/
theorem calls_descriptors (cs : List Call) (p : Proc σ) :
    p.fds ⊆ (calls d cs p).2.fds ∧
      (calls d cs p).2.fds.card + p.refused = p.fds.card + (calls d cs p).2.refused +
        (calls d cs p).1.count (.verify, libEvOk) := by
  have hbalanced := calls_balanced d cs p
  refine ⟨hbalanced.kept, ?_⟩
  rw [← sum_leaves]
  exact hbalanced.left

/-- In every sequence of calls, whatever the device answers: a message on the bus is a wake-up,
an address or a packet whose count and checksum are right, and the packets carry the
requests of the calls in their order, each at most once. -/
theorem calls_written (cs : List Call) (p : Proc σ) :
    ∃ l, (calls d cs p).2.written = p.written ++ l ∧ (∀ m ∈ l, Expected m) ∧
      (requests l).Sublist (cs.filterMap Call.request) :=
  (calls_balanced d cs p).written

end Bus

end BackupSoftware.Sha204
