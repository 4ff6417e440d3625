import Mathlib.Data.List.Count
import Mathlib.Tactic.IntervalCases

/-!
# The verdict of a network check

A check sends four echo requests and classifies the network by two counters, of the
requests and of the packets received. A packet is counted before it is parsed, so an
answer to somebody else's request counts like one of our own.
-/

namespace BackupSoftware.Ping

inductive CheckResult where
  | packetOk
  | packetLoss
  | packetError
  | failed
deriving DecidableEq, Repr

def icmpEchoMax : Nat := 4
def icmpEchoreply : UInt8 := 0

/-- The counters of `ICMP_STATIC_S`. -/
structure IcmpStatic where
  uiSendPktNum : UInt32
  uiRcvPktNum : UInt32

/-- What one call of `recvfrom` gives: `EAGAIN`, another error, or a packet. -/
inductive RecvResult where
  | timeout
  | error
  | packet (bytes : List UInt8)

/-- One turn of the sending loop. -/
inductive Attempt where
  | sendFailed
  | sent (result : RecvResult)

/-- Which of the calls before the first request succeed. -/
structure Setup where
  protocol : Bool
  socket : Bool
  setuid : Bool
  host : Bool

def showStatic (info : IcmpStatic) : CheckResult :=
  if info.uiSendPktNum > info.uiRcvPktNum then
    if info.uiRcvPktNum = 0 then .packetError else .packetLoss
  else if info.uiSendPktNum = info.uiRcvPktNum then .packetOk
  else .packetOk

/-- The packet stands in a cleared buffer, so what lies behind it reads as zero. -/
def parseIcmp (pid : Nat) (bytes : List UInt8) : Int :=
  let recvBuf := fun i => bytes.getD i 0
  let ipHeadLen := (recvBuf 0).toNat % 16 * 4
  let icmpLen : Int := bytes.length - ipHeadLen
  if 8 > icmpLen then -1
  else if recvBuf ipHeadLen ≠ icmpEchoreply ∨
      (recvBuf (ipHeadLen + 4)).toNat * 256 + (recvBuf (ipHeadLen + 5)).toNat ≠ pid % 65536 then -1
  else 1

def recvIcmp (pid : Nat) (result : RecvResult) (info : IcmpStatic) : IcmpStatic :=
  match result with
  | .timeout => info
  | .error => info
  | .packet bytes =>
      let info := { info with uiRcvPktNum := info.uiRcvPktNum + 1 }
      if 0 > parseIcmp pid bytes then info else info

/-- The sending loop, over the turns it makes; `none` if these end before the loop does. -/
def sendIcmp (pid : Nat) : List Attempt → Nat → IcmpStatic → Option IcmpStatic
  | [], ucEchoNum, info => if icmpEchoMax > ucEchoNum then none else some info
  | attempt :: rest, ucEchoNum, info =>
      if icmpEchoMax > ucEchoNum then
        let info := { info with uiSendPktNum := info.uiSendPktNum + 1 }
        match attempt with
        | .sendFailed => sendIcmp pid rest ucEchoNum info
        | .sent result => sendIcmp pid rest (ucEchoNum + 1) (recvIcmp pid result info)
      else some info

def libGetNetworkStatus (pid : Nat) (setup : Setup) (attempts : List Attempt) : Option CheckResult :=
  if !setup.protocol then some .failed
  else if !setup.socket then some .failed
  else if !setup.setuid then some .failed
  else if !setup.host then some .failed
  else (sendIcmp pid attempts 0 ⟨0, 0⟩).map showStatic

def Delivered : RecvResult → Bool
  | .packet _ => true
  | _ => false

/-- A packet that `parseIcmp` accepts as the reply to a request of this process. -/
def Accepted (pid : Nat) : RecvResult → Bool
  | .packet bytes => 0 ≤ parseIcmp pid bytes
  | _ => false

/-- The verdict `result` classifies the accepted replies. -/
def Classifies (pid : Nat) (results : List RecvResult) (result : CheckResult) : Prop :=
  (result = .packetOk ↔ ∀ r ∈ results, Accepted pid r = true) ∧
    (result = .packetError ↔ ∀ r ∈ results, Accepted pid r = false) ∧
    (result = .packetLoss ↔ (∃ r ∈ results, Accepted pid r = true) ∧
      ∃ r ∈ results, Accepted pid r = false)

theorem recvIcmp_eq (pid : Nat) (result : RecvResult) (info : IcmpStatic) :
    recvIcmp pid result info =
      { info with uiRcvPktNum := info.uiRcvPktNum + if Delivered result then 1 else 0 } := by
  cases result with
  | timeout => simp [recvIcmp, Delivered]
  | error => simp [recvIcmp, Delivered]
  | packet bytes => simp [recvIcmp, Delivered]

theorem delivered_of_accepted {pid : Nat} {r : RecvResult} (h : Accepted pid r = true) :
    Delivered r = true := by
  cases r with
  | timeout => cases h
  | error => cases h
  | packet bytes => rfl

/-- The loop counts its requests and the packets delivered, whatever these are. -/
theorem sendIcmp_counts (pid : Nat) (results : List RecvResult) (ucEchoNum : Nat)
    (info : IcmpStatic) (h : ucEchoNum + results.length = icmpEchoMax) :
    sendIcmp pid (results.map .sent) ucEchoNum info =
      some ⟨info.uiSendPktNum + UInt32.ofNat results.length,
        info.uiRcvPktNum + UInt32.ofNat (results.countP Delivered)⟩ := by
  induction results generalizing ucEchoNum info with
  | nil =>
    rw [List.length_nil] at h
    rw [List.map_nil, sendIcmp, if_neg (by omega)]
    simp
  | cons r results ih =>
    rw [List.length_cons] at h
    rw [List.map_cons, sendIcmp, if_pos (by omega)]
    simp only
    rw [ih (ucEchoNum + 1) _ (by omega), recvIcmp_eq]
    have hone : UInt32.ofNat (results.length + 1) = 1 + UInt32.ofNat results.length := by
      rw [Nat.add_comm, UInt32.ofNat_add]
      rfl
    have hcount : UInt32.ofNat ((r :: results).countP Delivered) =
        (if Delivered r then 1 else 0) + UInt32.ofNat (results.countP Delivered) := by
      rw [List.countP_cons, Nat.add_comm, UInt32.ofNat_add]
      split <;> rfl
    rw [List.length_cons, hone, hcount, ← UInt32.add_assoc, ← UInt32.add_assoc]

theorem showStatic_four {delivered : Nat} (h : delivered ≤ 4) :
    showStatic ⟨4, UInt32.ofNat delivered⟩ =
      if delivered = 4 then .packetOk else if delivered = 0 then .packetError else .packetLoss := by
  interval_cases delivered <;> rfl

theorem status_eq (pid : Nat) (results : Vector RecvResult 4) :
    libGetNetworkStatus pid ⟨true, true, true, true⟩ (results.toList.map .sent) =
      some (if ∀ r ∈ results.toList, Delivered r = true then .packetOk
        else if ∀ r ∈ results.toList, Delivered r = false then .packetError
        else .packetLoss) := by
  have hlen : results.toList.length = 4 := by simp
  have hle := List.countP_le_length (p := Delivered) (l := results.toList)
  have hall := List.countP_eq_length (p := Delivered) (l := results.toList)
  have hnone := List.countP_eq_zero (p := Delivered) (l := results.toList)
  rw [hlen] at hle hall
  have hcounts := sendIcmp_counts pid results.toList 0 ⟨0, 0⟩ (by rw [hlen]; rfl)
  rw [hlen, UInt32.zero_add, UInt32.zero_add] at hcounts
  simp only [Bool.not_eq_true] at hnone
  simp only [libGetNetworkStatus, hcounts, Option.map_some]
  rw [show UInt32.ofNat 4 = 4 from rfl, showStatic_four hle]
  simp only [hall, hnone]
  rfl

theorem not_accepted_of_not_delivered {pid : Nat} {r : RecvResult} (h : Delivered r = false) :
    Accepted pid r = false := by
  by_contra hr
  rw [delivered_of_accepted (Bool.of_not_eq_false hr)] at h
  cases h

/-- Four delivered packets are all accepted, and where packets are delivered one is accepted. -/
def RepliesDecide (pid : Nat) (results : List RecvResult) : Prop :=
  ((∀ r ∈ results, Delivered r = true) → ∀ r ∈ results, Accepted pid r = true) ∧
    ((∃ r ∈ results, Delivered r = true) → ∃ r ∈ results, Accepted pid r = true)

theorem classifies_ok {pid : Nat} {results : List RecvResult} (hne : results ≠ []) :
    Classifies pid results .packetOk ↔ ∀ r ∈ results, Accepted pid r = true := by
  obtain ⟨r₀, hr₀⟩ := List.exists_mem_of_ne_nil results hne
  constructor
  · intro h
    exact h.1.mp rfl
  · intro h
    refine ⟨⟨fun _ => h, fun _ => rfl⟩, ⟨nofun, ?_⟩, ⟨nofun, ?_⟩⟩
    · intro hnone
      have hfalse := hnone r₀ hr₀
      rw [h r₀ hr₀] at hfalse
      cases hfalse
    · intro hmixed
      obtain ⟨-, r, hr, hfalse⟩ := hmixed
      rw [h r hr] at hfalse
      cases hfalse

theorem classifies_error {pid : Nat} {results : List RecvResult} (hne : results ≠ []) :
    Classifies pid results .packetError ↔ ∀ r ∈ results, Accepted pid r = false := by
  obtain ⟨r₀, hr₀⟩ := List.exists_mem_of_ne_nil results hne
  constructor
  · intro h
    exact h.2.1.mp rfl
  · intro h
    refine ⟨⟨nofun, ?_⟩, ⟨fun _ => h, fun _ => rfl⟩, ⟨nofun, ?_⟩⟩
    · intro hall
      have htrue := hall r₀ hr₀
      rw [h r₀ hr₀] at htrue
      cases htrue
    · intro hmixed
      obtain ⟨⟨r, hr, htrue⟩, -⟩ := hmixed
      rw [h r hr] at htrue
      cases htrue

theorem classifies_loss {pid : Nat} {results : List RecvResult} :
    Classifies pid results .packetLoss ↔
      (∃ r ∈ results, Accepted pid r = true) ∧ ∃ r ∈ results, Accepted pid r = false := by
  constructor
  · intro h
    exact h.2.2.mp rfl
  · intro h
    obtain ⟨⟨r, hr, htrue⟩, r', hr', hfalse⟩ := h
    refine ⟨⟨nofun, ?_⟩, ⟨nofun, ?_⟩, ⟨fun _ => ⟨⟨r, hr, htrue⟩, r', hr', hfalse⟩, fun _ => rfl⟩⟩
    · intro hall
      rw [hall r' hr'] at hfalse
      cases hfalse
    · intro hnone
      rw [hnone r hr] at htrue
      cases htrue

/-- The verdict is right unless foreign packets complete the four or are all that arrived. -/
theorem status_classifies_iff (pid : Nat) (results : Vector RecvResult 4) :
    (∃ result, libGetNetworkStatus pid ⟨true, true, true, true⟩ (results.toList.map .sent) =
        some result ∧ Classifies pid results.toList result) ↔
      RepliesDecide pid results.toList := by
  have hne : results.toList ≠ [] := by
    intro h
    have hlen := congrArg List.length h
    simp at hlen
  rw [status_eq]
  simp only [Option.some.injEq, exists_eq_left']
  split
  · next hall =>
    rw [classifies_ok hne]
    constructor
    · intro h
      obtain ⟨r₀, hr₀⟩ := List.exists_mem_of_ne_nil _ hne
      exact ⟨fun _ => h, fun _ => ⟨r₀, hr₀, h r₀ hr₀⟩⟩
    · intro h
      exact h.1 hall
  next hmissing =>
  split
  · next hnone =>
    rw [classifies_error hne]
    constructor
    · intro _
      refine ⟨fun hall => absurd hall hmissing, ?_⟩
      intro hsome
      obtain ⟨r, hr, hdelivered⟩ := hsome
      rw [hnone r hr] at hdelivered
      cases hdelivered
    · intro _ r hr
      exact not_accepted_of_not_delivered (hnone r hr)
  · next hsome =>
    rw [classifies_loss]
    simp only [not_forall, Bool.not_eq_false, Bool.not_eq_true] at hsome hmissing
    obtain ⟨r, hr, hdelivered⟩ := hsome
    obtain ⟨r', hr', hlost⟩ := hmissing
    constructor
    · intro h
      refine ⟨fun hall => ?_, fun _ => h.1⟩
      have htrue := hall r' hr'
      rw [hlost] at htrue
      cases htrue
    · intro h
      exact ⟨h.2 ⟨r, hr, hdelivered⟩, r', hr', not_accepted_of_not_delivered hlost⟩

/-- An echo reply of 28 bytes to a request of process 5. -/
def reply5 : List UInt8 := 0x45 :: List.replicate 19 0 ++ [0, 0, 0, 0, 0, 5, 0, 0]

example : Accepted 5 (.packet reply5) = true ∧ Accepted 4 (.packet reply5) = false := by decide

/-- Four timeouts but for one packet that belongs to another process: nothing of process 4 arrived,
and the verdict is a partial loss. -/
theorem foreign_reply_counted :
    ∃ result, libGetNetworkStatus 4 ⟨true, true, true, true⟩
        ([.packet reply5, .timeout, .timeout, .timeout].map .sent) = some result ∧
      ¬ Classifies 4 [.packet reply5, .timeout, .timeout, .timeout] result := by
  refine ⟨.packetLoss, by decide, ?_⟩
  rw [classifies_loss]
  decide

end BackupSoftware.Ping
