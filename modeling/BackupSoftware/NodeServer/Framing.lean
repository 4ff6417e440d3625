import BackupSoftware.NodeServer.Escape

/-!
# The escaped stream

Head and tail bytes delimit the frames of the stream: they stand at the two ends
of every escaped frame and nowhere else.
-/

namespace BackupSoftware.NodeServer

open BackupSoftware.Library BackupSoftware.Library.Memory

/-- An input of `__uplink_escape` that has a first and a last byte. -/
structure RawFrame where
  src : Nat → UInt8
  slen : Nat
  two_le : 2 ≤ slen

/-- The bytes between the first and the last. -/
def RawFrame.interior (f : RawFrame) : List UInt8 := load f.src 1 (f.slen - 2)

def RawFrame.escaped (dest : Nat → UInt8) (f : RawFrame) : List UInt8 :=
  output (uplinkEscape dest f.src f.slen)

/-- The bytes that must not appear inside a frame. -/
def Reserved (b : UInt8) : Prop := b = ndevEscF0h ∨ b = ndevHd ∨ b = ndevTail

instance (b : UInt8) : Decidable (Reserved b) := inferInstanceAs (Decidable (_ ∨ _))

theorem code_isSome_iff (b : UInt8) : (nodeStuffing.code b).isSome = decide (Reserved b) := by
  rcases escapeCode_cases b with ⟨hb, h⟩ | ⟨hb, h⟩ | ⟨hb, h⟩ | ⟨h1, h2, h0, h⟩
  · rw [hb]
    decide
  · rw [hb]
    decide
  · rw [hb]
    decide
  · rw [show nodeStuffing.code b = none from h]
    have hnot : ¬ Reserved b := by
      intro h'
      rcases h' with hb | hb | hb
      · exact h0 hb
      · exact h1 hb
      · exact h2 hb
    rw [decide_eq_false hnot]
    rfl

theorem no_delimiter_in_stuff {l : List UInt8} {b : UInt8} (hb : b ∈ nodeStuffing.stuff l) :
    b ≠ ndevHd ∧ b ≠ ndevTail := by
  constructor
  · intro h
    subst h
    exact absurd (nodeStuffing.eq_esc_of_mem_stuff hb (by decide)) (by decide)
  · intro h
    subst h
    exact absurd (nodeStuffing.eq_esc_of_mem_stuff hb (by decide)) (by decide)

theorem escaped_eq (dest : Nat → UInt8) (f : RawFrame) :
    f.escaped dest = ndevHd :: nodeStuffing.stuff f.interior ++ [ndevTail] :=
  output_uplinkEscape dest f.src f.two_le

/-- The return value is the length of the input and one more for each reserved byte of
its interior. -/
theorem uplinkEscape_length (dest : Nat → UInt8) (f : RawFrame) :
    (uplinkEscape dest f.src f.slen).2 = f.slen + f.interior.countP fun b => Reserved b := by
  have hlen : f.interior.length = f.slen - 2 := length_load _ _ _
  have htwo := f.two_le
  rw [← length_output]
  show (f.escaped dest).length = _
  rw [escaped_eq, List.length_append, List.length_cons, Stuffing.length_stuff]
  simp only [code_isSome_iff, List.length_singleton]
  omega

/-- Escaped frames start with the head, end with the tail, have neither in between and have
the expected length, so that cutting their concatenation gives them back in order. -/
theorem uplink_transparent (dest : Nat → UInt8) :
    (∀ f : RawFrame,
      (∃ text, f.escaped dest = ndevHd :: text ++ [ndevTail] ∧
        ∀ b ∈ text, b ≠ ndevHd ∧ b ≠ ndevTail) ∧
      (f.escaped dest).length = (uplinkEscape dest f.src f.slen).2 ∧
      (uplinkEscape dest f.src f.slen).2 = f.slen + (f.interior.countP fun b => Reserved b) ∧
      (uplinkEscape dest f.src f.slen).2 ≤ 2 * f.slen - 2) ∧
    ∀ frames : List RawFrame,
      cutFrames ndevHd ndevTail none (frames.map (·.escaped dest)).flatten =
        frames.map (·.escaped dest) := by
  constructor
  · intro f
    refine ⟨⟨_, escaped_eq dest f, fun b hb => no_delimiter_in_stuff hb⟩, length_output _,
      uplinkEscape_length dest f, ?_⟩
    have hcount := List.countP_le_length (p := fun b => decide (Reserved b)) (l := f.interior)
    have hlen : f.interior.length = f.slen - 2 := length_load _ _ _
    have htwo := f.two_le
    rw [uplinkEscape_length]
    omega
  · intro frames
    apply cutFrames_flatten (by decide)
    intro e he
    obtain ⟨f, -, rfl⟩ := List.mem_map.mp he
    exact ⟨_, escaped_eq dest f, fun b hb => no_delimiter_in_stuff hb⟩

end BackupSoftware.NodeServer
