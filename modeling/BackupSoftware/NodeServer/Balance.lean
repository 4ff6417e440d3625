import BackupSoftware.NodeServer.Dependence
import BackupSoftware.NodeServer.Package

/-!
# The answer of the load balancer

`main` of `node_server/main.c` receives at most 128 bytes of a datagram, un-escapes them,
decodes 36 characters from offset 11 of the frame and takes an address, a port and a key from
fixed places of what it has decoded. The decoder belongs to a library that is not part of
the repository and is a parameter. No check is made on the way, and none is needed to
find the key of an answer that was built correctly, even if its end is cut off.
-/

namespace BackupSoftware.NodeServer

open BackupSoftware.Library BackupSoftware.Library.Memory

section Receive

variable (b64DecodeHex : List UInt8 → List UInt8)

/-- `rxbuf` at the end, for the bytes received. The decoded bytes are written over the
datagram. -/
def rxbuf (received : List UInt8) : Nat → UInt8 :=
  let rxbuf := store (fun _ => 0) 0 received
  let buf := (downlinkEscape (fun _ => 0) rxbuf received.length).1
  store rxbuf 0 (b64DecodeHex (load buf 11 36))

/-- What is left of the answer in the end. -/
structure Ack where
  ip : List UInt8
  port : Nat
  encryKey : List UInt8
  deriving DecidableEq, Repr

/-- The balancing part of `main`, for a datagram that `lib_udp_recvfrom_select` copies to
`rxbuf`; `none` if it returns 0 or less. -/
def loadBalance (datagram : List UInt8) : Option Ack :=
  let received := datagram.take 128
  if received.length = 0 then none
  else
    let rxbuf := rxbuf b64DecodeHex received
    some { ip := load rxbuf 5 4, port := beAt (load rxbuf 0 512) 9, encryKey := load rxbuf 11 16 }

end Receive

/-- The contents of an answer: the bytes before the data of the frame, the data, and what
follows them. -/
structure Reply where
  header : Vector UInt8 10
  start : Vector UInt8 5
  ip : Vector UInt8 4
  port : UInt16
  key : Vector UInt8 16
  rest : List UInt8

def Reply.data (r : Reply) : List UInt8 :=
  r.start.toList ++ r.ip.toList ++ htons r.port ++ r.key.toList

/-- The answer as a frame, escaped. -/
def Reply.datagram (b64EncodeHex : List UInt8 → List UInt8) (r : Reply) : List UInt8 :=
  ndevHd :: nodeStuffing.stuff (r.header.toList ++ b64EncodeHex r.data ++ r.rest) ++ [ndevTail]

theorem written_escaped {a c : UInt8} (h : escapeCode a = some c) (text : List UInt8) :
    written (ndevEscF0h :: c :: text) = some a :: written text := by
  rw [written, if_pos rfl]
  rcases escapeCode_cases a with ⟨rfl, ha⟩ | ⟨rfl, ha⟩ | ⟨rfl, ha⟩ | ⟨-, -, -, ha⟩
  all_goals rw [ha] at h
  all_goals cases h
  all_goals rfl

theorem written_stuff_append (l : List UInt8) {text : List UInt8} (htext : text ≠ []) :
    written (nodeStuffing.stuff l ++ text) = l.map some ++ written text := by
  induction l with
  | nil => rfl
  | cons b l ih =>
    rw [Stuffing.stuff_cons, List.append_assoc, List.map_cons, List.cons_append, ← ih]
    cases hcode : escapeCode b with
    | some c =>
      rw [nodeStuffing.stuffSymbol_some hcode]
      exact written_escaped hcode _
    | none =>
      have hplain : b ≠ ndevEscF0h := by
        rintro rfl
        cases hcode
      obtain ⟨c, rest, hrest⟩ := List.exists_cons_of_ne_nil
        (List.append_ne_nil_of_right_ne_nil (nodeStuffing.stuff l) htext)
      rw [nodeStuffing.stuffSymbol_none hcode, hrest, List.singleton_append, written,
        if_neg hplain]

/-- If the bytes received start with a stuffed text and do not end there, then the frame
starts with that text, whatever follows. -/
theorem load_downlinkEscape (dest : Nat → UInt8) {received l text : List UInt8} {b : UInt8}
    (htext : text ≠ []) (hreceived : received = b :: (nodeStuffing.stuff l ++ text)) :
    load (downlinkEscape dest (store (fun _ => 0) 0 received) received.length).1 1 l.length = l := by
  subst hreceived
  generalize hlist : b :: (nodeStuffing.stuff l ++ text) = received
  have hload : load (store (fun _ => (0 : UInt8)) 0 received) 1 (received.length - 1) =
      nodeStuffing.stuff l ++ text := by
    have h := load_store (fun _ => (0 : UInt8)) 0 received
    rw [← hlist, List.length_cons, load_succ] at h
    rw [← hlist, List.length_cons, Nat.add_sub_cancel]
    exact (List.cons.inj h).2
  have hescape := downlinkEscape_eq dest (store (fun _ => (0 : UInt8)) 0 received)
    (n := received.length) (by rw [← hlist, List.length_cons]; omega)
  rw [hload, written_stuff_append l htext, patch_map_some_append] at hescape
  rw [hescape]
  simp only
  refine (load_congr fun k hk hk' => ?_).trans (load_store dest 1 l)
  rw [Function.update_of_ne, Function.update_of_ne (by omega), patch_before _ _ _ hk']
  rw [List.length_append, List.length_map]
  omega

/-- A decoder for what the encoder writes. -/
def Decodes (b64EncodeHex b64DecodeHex : List UInt8 → List UInt8) : Prop :=
  ∀ x, b64DecodeHex (b64EncodeHex x) = x

theorem length_data (r : Reply) : r.data.length = 27 := by
  simp [Reply.data, htons]

/-- Of a datagram that is cut off after 128 bytes the data of the frame is complete. -/
theorem rxbuf_reply {b64EncodeHex b64DecodeHex : List UInt8 → List UInt8}
    (hlen : WritesBase64Length b64EncodeHex) (hdec : Decodes b64EncodeHex b64DecodeHex) (r : Reply) :
    load (rxbuf b64DecodeHex ((r.datagram b64EncodeHex).take 128)) 0 27 = r.data := by
  have hdata := length_data r
  have henc : (b64EncodeHex r.data).length = 36 := by rw [hlen, hdata]
  have hheader : r.header.toList.length = 10 := Vector.length_toList
  generalize hl : r.header.toList ++ b64EncodeHex r.data = l
  have hlength : l.length = 46 := by rw [← hl, List.length_append, hheader, henc]
  have hshort : (nodeStuffing.stuff l).length ≤ 92 := by
    have hcount := List.countP_le_length (p := fun a => (nodeStuffing.code a).isSome) (l := l)
    rw [Stuffing.length_stuff]
    omega
  have hcut : ∃ text, text ≠ [] ∧
      (r.datagram b64EncodeHex).take 128 = ndevHd :: (nodeStuffing.stuff l ++ text) := by
    refine ⟨(nodeStuffing.stuff r.rest ++ [ndevTail]).take (127 - (nodeStuffing.stuff l).length), ?_, ?_⟩
    · intro h
      have hempty := congrArg List.length h
      rw [List.length_take, List.length_append, List.length_singleton, List.length_nil] at hempty
      omega
    · rw [Reply.datagram, hl, Stuffing.stuff, List.flatMap_append, List.cons_append,
        List.take_succ_cons, List.append_assoc, List.take_append, List.take_of_length_le]
      · rfl
      · exact Nat.le_trans hshort (by decide)
  obtain ⟨text, htext, htake⟩ := hcut
  have hfront := load_downlinkEscape (fun _ => 0) htext htake
  rw [hlength, show 46 = 10 + 36 from rfl, load_add, ← hl] at hfront
  obtain ⟨-, hfield⟩ := List.append_inj hfront (by rw [length_load, hheader])
  rw [show 1 + 10 = 11 from rfl] at hfield
  rw [rxbuf, hfield, hdec, ← hdata, load_store]

/-- The node finds the address, the port and the key of every answer, however long the answer
is and wherever its end is cut off. -/
theorem loadBalance_reply {b64EncodeHex b64DecodeHex : List UInt8 → List UInt8}
    (hlen : WritesBase64Length b64EncodeHex) (hdec : Decodes b64EncodeHex b64DecodeHex) (r : Reply) :
    loadBalance b64DecodeHex (r.datagram b64EncodeHex) =
      some { ip := r.ip.toList, port := r.port.toNat, encryKey := r.key.toList } := by
  have hreceived : ((r.datagram b64EncodeHex).take 128).length ≠ 0 := by
    rw [Reply.datagram, List.cons_append, List.take_succ_cons, List.length_cons]
    exact Nat.succ_ne_zero _
  have hfront := rxbuf_reply hlen hdec r
  rw [loadBalance]
  simp only
  rw [if_neg hreceived]
  generalize rxbuf b64DecodeHex ((r.datagram b64EncodeHex).take 128) = m at hfront ⊢
  have hstart : r.start.toList.length = 5 := Vector.length_toList
  have hip : r.ip.toList.length = 4 := Vector.length_toList
  have hfields := hfront
  rw [show 27 = 5 + 4 + 2 + 16 from rfl, load_add, load_add, load_add, Reply.data] at hfields
  obtain ⟨hbefore, hkey⟩ := List.append_inj hfields (by
    simp only [List.length_append, length_load, hstart, hip, htons, List.length_cons, List.length_nil])
  obtain ⟨haddress, -⟩ := List.append_inj hbefore (by
    simp only [List.length_append, length_load, hstart, hip])
  obtain ⟨-, hipfield⟩ := List.append_inj haddress (by rw [length_load, hstart])
  have hport : beAt (load m 0 512) 9 = r.port.toNat := by
    have hnine : (r.start.toList ++ r.ip.toList).length = 9 := by
      rw [List.length_append, hstart, hip]
    rw [show 512 = 27 + 485 from rfl, load_add, hfront, Reply.data, List.append_assoc,
      ← hnine]
    exact beAt_htons _ _ _
  rw [show 0 + 5 + 4 + 2 = 11 from rfl] at hkey
  rw [show 0 + 5 = 5 from rfl] at hipfield
  rw [hkey, hipfield, hport]

/-- With the encoding of the encryption library, and an answer of which more than a half is
cut off. -/
theorem loadBalance_reply_base64 :
    let decode := fun text => match Encryption.decodeGroups (text ++ [0]) with
      | .ok bytes => bytes
      | .error _ => []
    let r : Reply := {
      header := Vector.replicate 10 0xF0
      start := Vector.replicate 5 0
      ip := #v[121, 8, 152, 2]
      port := 10020
      key := Vector.replicate 16 0xF1
      rest := List.replicate 200 0xF2 }
    loadBalance decode (r.datagram Encryption.encodeGroups) =
      some { ip := [121, 8, 152, 2], port := 10020, encryKey := List.replicate 16 0xF1 } := by
  intro decode r
  have hdec : Decodes Encryption.encodeGroups decode := fun x => by
    simp only [decode, Encryption.decodeGroups_encodeGroups]
  exact loadBalance_reply Encryption.length_encodeGroups hdec r

end BackupSoftware.NodeServer
