import Mathlib.Algebra.Group.Nat.Defs
import BackupSoftware.Can.Sender

/-!
# What the frames of a put call reveal

A tail frame copies what is left of the payload, a middle frame lies inside it, but a
head frame copies eight bytes whatever the length is. Of a shorter payload it carries
the bytes that follow it in the sender's memory.
-/

namespace BackupSoftware.Can

/-- The offsets `i * CAN_FRAME_LEN_MAX` and the bytes counted in `send_bytes` are `int`s, which
must not overflow. -/
def OffsetsFit (len : Nat) : Prop := ∀ i < frameCount len, i * 8 < 2 ^ 31

/-- The frames that `send` writes are determined by the sender's identifier and serial number and
the first `len` bytes, whichever writes succeed. -/
def DependsOnPayload (send : (Nat → Bool) → LibCtos → (Nat → UInt8) → List CanFrameMetadata)
    (len : Nat) : Prop :=
  OffsetsFit len ∧ ∀ writen ctos ctos' data data', ctos.canId = ctos'.canId → ctos.sn = ctos'.sn →
    (∀ k < len, data k = data' k) → send writen ctos data = send writen ctos' data'

theorem offsetsFit_iff {len : Nat} (h1 : 1 ≤ len) : OffsetsFit len ↔ len ≤ 2 ^ 31 := by
  have hn := frameCount_eq len
  unfold OffsetsFit
  constructor
  · intro h
    have hlast := h (frameCount len - 1) (by omega)
    omega
  · intro h i hi
    omega

section Frames

variable {writen : Nat → Bool} {ctos ctos' : LibCtos} {destAddr priority : UInt8}
  {data data' : Nat → UInt8} {len : Nat}

theorem chunk_congr {i count : Nat}
    (h : ∀ j < 8, j < count → data (i * 8 + j) = data' (i * 8 + j)) :
    chunk data i count = chunk data' i count := by
  apply Vector.ext
  intro j hj
  simp only [chunk, Vector.getElem_ofFn]
  split
  · exact h j hj ‹_›
  · rfl

theorem frameInit_congr (hid : ctos.canId = ctos'.canId) (destAddr random priority : UInt8)
    (i : Nat) :
    frameInit ctos destAddr random priority i = frameInit ctos' destAddr random priority i := by
  unfold frameInit
  rw [hid]

theorem putLoop_congr (writen : Nat → Bool) (hid : ctos.canId = ctos'.canId)
    (hdata : ∀ k < len, data k = data' k) (h8 : 8 ≤ len) (destAddr random priority : UInt8)
    (todo i : Nat) (hi : i + todo = frameCount len) :
    putLoop writen ctos destAddr random priority data len (frameCount len) todo i (i * 8) =
      putLoop writen ctos' destAddr random priority data' len (frameCount len) todo i (i * 8) := by
  have hn : frameCount len = (len + 7) / 8 := frameCount_eq len
  induction todo generalizing i with
  | zero => rfl
  | succ todo ih =>
    have hnext := ih (i + 1) (by omega)
    have hinit := frameInit_congr hid destAddr random priority i
    by_cases h0 : i = 0
    · subst h0
      have hc : chunk data 0 8 = chunk data' 0 8 := by
        apply chunk_congr
        intro j hj _
        exact hdata _ (by omega)
      simp only [putLoop, ↓reduceIte, Nat.zero_add, Nat.zero_mul, Nat.one_mul] at hnext ⊢
      rw [hinit, hc, hnext]
    · by_cases hlast : i = frameCount len - 1
      · have ht : todo = 0 := by omega
        subst ht
        have hc : chunk data i (len - i * 8) = chunk data' i (len - i * 8) := by
          apply chunk_congr
          intro j _ hj
          exact hdata _ (by omega)
        simp only [putLoop, h0, ← hlast, ↓reduceIte]
        rw [hinit, hc]
      · have hc : chunk data i 8 = chunk data' i 8 := by
          apply chunk_congr
          intro j hj _
          exact hdata _ (by omega)
        have hs : i * 8 + 8 = (i + 1) * 8 := by omega
        simp only [putLoop, h0, hlast, ↓reduceIte]
        rw [hinit, hc, hs, hnext]

theorem putBody_congr (hid : ctos.canId = ctos'.canId) (hsn : ctos.sn = ctos'.sn)
    (hdata : ∀ k < len, data k = data' k) (h8 : 8 ≤ len) :
    (putBody writen ctos destAddr data len priority).2 =
      (putBody writen ctos' destAddr data' len priority).2 := by
  have hrandom : (frameSnGet ctos).1 = (frameSnGet ctos').1 := by
    unfold frameSnGet
    rw [hsn]
  have hid' : (frameSnGet ctos).2.canId = (frameSnGet ctos').2.canId := hid
  have hloop (writen : Nat → Bool) := putLoop_congr writen hid' hdata h8 destAddr
    (frameSnGet ctos).1 priority (frameCount len) 0 (Nat.zero_add _)
  have hinit := frameInit_congr hid' destAddr (frameSnGet ctos).1 priority 0
  rw [Nat.zero_mul] at hloop
  simp only [putBody]
  by_cases h1 : frameCount len = 1
  · simp only [h1, ↓reduceIte] at hloop ⊢
    rw [hloop, hinit, hrandom]
    cases writen 0 <;> rfl
  · simp only [h1, ↓reduceIte]
    rw [hloop, hrandom]

end Frames

theorem short_put_depends {len : Nat} (h1 : 1 ≤ len) (h8 : len < 8) (destAddr priority : UInt8) :
    ¬ DependsOnPayload (fun writen ctos data =>
      (putBody writen ctos destAddr data len priority).2.1) len := by
  intro h
  have hsame := h.2 (fun _ => true) (idleHandle 1) (idleHandle 1) (fun _ => 0)
    (Function.update (fun _ => 0) len 1) rfl rfl
    (fun k hk => by rw [Function.update_of_ne (Nat.ne_of_lt hk)])
  simp only [putBody_short h1 (Nat.le_of_lt h8)] at hsame
  have hhead := congrArg CanFrameMetadata.data (List.cons.inj (List.cons.inj hsame).2).1
  have hbyte := congrArg (fun v : Vector UInt8 8 => v[len]?) hhead
  simp only [chunk, Vector.getElem?_eq_getElem h8, Vector.getElem_ofFn, if_pos h8, Nat.zero_mul,
    Nat.zero_add, Function.update_self, Option.some.injEq] at hbyte
  cases hbyte

theorem putBody_dependsOnPayload_iff {len : Nat} (h1 : 1 ≤ len) (destAddr priority : UInt8) :
    DependsOnPayload (fun writen ctos data =>
        (putBody writen ctos destAddr data len priority).2.1) len ↔
      8 ≤ len ∧ len ≤ 2 ^ 31 := by
  constructor
  · intro h
    refine ⟨?_, (offsetsFit_iff h1).mp h.1⟩
    by_contra h8
    exact short_put_depends h1 (by omega) destAddr priority h
  · intro h
    refine ⟨(offsetsFit_iff h1).mpr h.2, ?_⟩
    intro writen ctos ctos' data data' hid hsn hdata
    exact congrArg Prod.fst (putBody_congr hid hsn hdata h.1)

/-- The frames of both put functions carry nothing but the payload exactly from eight bytes on, as
long as the offsets are `int`s. -/
theorem put_reveals_payload_iff (destAddr priority : UInt8) (len : Nat) (h1 : 1 ≤ len) :
    (DependsOnPayload (fun writen ctos data => (libCtosPut writen ctos destAddr data len).2.1) len ↔
      8 ≤ len ∧ len ≤ 2 ^ 31) ∧
    (DependsOnPayload (fun writen ctos data =>
        (libCtosPutPriority writen ctos destAddr data len priority).2.1) len ↔
      8 ≤ len ∧ len ≤ 2 ^ 31) :=
  ⟨putBody_dependsOnPayload_iff h1 destAddr canPriorityLow,
    putBody_dependsOnPayload_iff h1 destAddr priority⟩

theorem put_reveals_payload_twenty_bytes :
    DependsOnPayload (fun writen ctos data => (libCtosPut writen ctos 2 data 20).2.1) 20 ∧
      ¬ DependsOnPayload (fun writen ctos data =>
        (libCtosPutPriority writen ctos 2 data 5 0).2.1) 5 := by
  refine ⟨(put_reveals_payload_iff 2 0 20 (by decide)).1.mpr (by decide), ?_⟩
  intro h
  exact absurd ((put_reveals_payload_iff 2 0 5 (by decide)).2.mp h) (by decide)

/-- Five bytes 7 followed by 00 in one run and by 2A in the other: the sixth byte of the head frame
tells the runs apart. -/
theorem short_put_reveals_next_byte :
    (((libCtosPut (fun _ => true) (idleHandle 1) 2 (fun k => if k < 5 then 7 else 0x00) 5).2.1.map
        fun f => f.data[5]) = [0, 0x00]) ∧
      (((libCtosPut (fun _ => true) (idleHandle 1) 2 (fun k => if k < 5 then 7 else 0x2A) 5).2.1.map
        fun f => f.data[5]) = [0, 0x2A]) ∧
      ¬ DependsOnPayload (fun writen ctos data => (libCtosPut writen ctos 2 data 5).2.1) 5 := by
  refine ⟨by decide, by decide, ?_⟩
  exact short_put_depends (by decide) (by decide) 2 canPriorityLow

end BackupSoftware.Can
