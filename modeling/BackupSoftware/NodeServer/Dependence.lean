import BackupSoftware.NodeServer.Escape

/-!
# What un-escaping depends on

For an escape byte that is followed by none of its three codes the contracting loop
counts a byte that it does not write. What stands there afterwards was in the
destination before the call, so the result is no longer a function of the bytes received.
-/

namespace BackupSoftware.NodeServer

open BackupSoftware.Library.Memory

/-- The byte that the loop writes for 0xF0 followed by `c`. -/
def unescaped (c : UInt8) : Option UInt8 :=
  if c = 0x01 then some ndevHd
  else if c = 0x02 then some ndevEscF0h
  else if c = 0x00 then some ndevTail
  else none

/-- What the loop writes, byte after byte, when `idxI` is at the start of the text and the
last byte of the text is `src[slen - 1]`. -/
def written : List UInt8 → List (Option UInt8)
  | b :: c :: rest =>
      if b = ndevEscF0h then unescaped c :: written rest else some b :: written (c :: rest)
  | _ => []

/-- Every 0xF0 that the loop comes upon is followed by 0x00, 0x01 or 0x02; the last byte of
the text is only looked at as the second of a pair. -/
def EscapesKnown : List UInt8 → Prop
  | b :: c :: rest =>
      if b = ndevEscF0h then (c = ndevEsc00h ∨ c = ndevEsc01h ∨ c = ndevEsc02h) ∧ EscapesKnown rest
      else EscapesKnown (c :: rest)
  | _ => True

instance decidableEscapesKnown : ∀ text, Decidable (EscapesKnown text)
  | [] => isTrue trivial
  | [_] => isTrue trivial
  | b :: c :: rest =>
      have := decidableEscapesKnown rest
      have := decidableEscapesKnown (c :: rest)
      inferInstanceAs (Decidable (if b = ndevEscF0h
        then (c = ndevEsc00h ∨ c = ndevEsc01h ∨ c = ndevEsc02h) ∧ EscapesKnown rest
        else EscapesKnown (c :: rest)))

/-- The return value and the bytes returned are the same whatever the destination held and
whatever follows the first `n` bytes of the source. -/
def DependsOnReceived (src : Nat → UInt8) (n : Nat) : Prop :=
  ∀ dest dest' src' : Nat → UInt8, load src' 0 n = load src 0 n →
    (downlinkEscape dest src n).2 = (downlinkEscape dest' src' n).2 ∧
      output (downlinkEscape dest src n) = output (downlinkEscape dest' src' n)

theorem downlinkLoop_end {src : Nat → UInt8} {slen : Int} {idxI : Nat} (h : slen - 2 < idxI)
    (dest : Nat → UInt8) (idxJ : Nat) : downlinkLoop src slen dest idxI idxJ = (dest, idxJ) := by
  rw [downlinkLoop, if_neg (by omega)]

theorem downlinkLoop_escape {src : Nat → UInt8} {slen : Int} {idxI : Nat}
    (h : (idxI : Int) ≤ slen - 2) (hesc : src idxI = ndevEscF0h) (dest : Nat → UInt8)
    (idxJ : Nat) :
    downlinkLoop src slen dest idxI idxJ =
      downlinkLoop src slen (patch dest idxJ [unescaped (src (idxI + 1))]) (idxI + 2)
        (idxJ + 1) := by
  rw [downlinkLoop, if_pos h, if_pos hesc, unescaped]
  simp only
  congr 1
  split
  · rfl
  · split
    · rfl
    · split <;> rfl

/-- From `idxI` on, with `n` bytes of the source left. -/
theorem downlinkLoop_eq (src : Nat → UInt8) (slen : Int) (dest : Nat → UInt8) (idxI idxJ n : Nat)
    (hn : (idxI : Int) + n = slen) :
    downlinkLoop src slen dest idxI idxJ =
      (patch dest idxJ (written (load src idxI n)),
        idxJ + (written (load src idxI n)).length) := by
  induction n using Nat.strongRecOn generalizing dest idxI idxJ with
  | ind n ih =>
    match n with
    | 0 => exact downlinkLoop_end (by omega) dest idxJ
    | 1 => exact downlinkLoop_end (by omega) dest idxJ
    | n + 2 =>
      rw [load_succ, load_succ, written]
      by_cases hesc : src idxI = ndevEscF0h
      · rw [downlinkLoop_escape (by omega) hesc, ih n (by omega) _ _ _ (by omega), if_pos hesc,
          List.length_cons, Nat.add_assoc, Nat.add_comm 1]
        cases unescaped (src (idxI + 1)) with
        | none => rfl
        | some a => rfl
      · rw [downlinkLoop_plain (by omega) hesc, ih (n + 1) (by omega) _ _ _ (by omega),
          if_neg hesc, List.length_cons, Nat.add_assoc, Nat.add_comm 1, load_succ]
        rfl

theorem downlinkEscape_eq (dest src : Nat → UInt8) {n : Nat} (hn : 1 ≤ n) :
    downlinkEscape dest src n =
      (Function.update (Function.update (patch dest 1 (written (load src 1 (n - 1)))) 0 ndevHd)
        (1 + (written (load src 1 (n - 1))).length) ndevTail,
        1 + (written (load src 1 (n - 1))).length + 1) := by
  rw [downlinkEscape, downlinkLoop_eq src n dest 1 1 (n - 1) (by omega)]

theorem unescaped_isSome_iff (c : UInt8) :
    (unescaped c).isSome ↔ c = ndevEsc00h ∨ c = ndevEsc01h ∨ c = ndevEsc02h := by
  unfold unescaped
  split
  · simp_all [ndevEsc01h]
  · split
    · simp_all [ndevEsc02h]
    · split
      · simp_all [ndevEsc00h]
      · simp_all [ndevEsc00h, ndevEsc01h, ndevEsc02h]

theorem written_isSome_iff (text : List UInt8) :
    (∀ o ∈ written text, o.isSome) ↔ EscapesKnown text := by
  induction text using written.induct with
  | case1 c rest ih =>
    rw [written, if_pos rfl, EscapesKnown, if_pos rfl, List.forall_mem_cons, unescaped_isSome_iff,
      ih]
  | case2 b c rest hne ih =>
    rw [written, if_neg hne, EscapesKnown, if_neg hne, List.forall_mem_cons, ih]
    exact and_iff_right rfl
  | case3 text hshort =>
    match text with
    | [] => exact iff_of_true (by intro o ho; cases ho) trivial
    | [b] => exact iff_of_true (by intro o ho; cases ho) trivial
    | b :: c :: rest => exact (hshort b c rest rfl).elim

theorem exists_map_some {l : List (Option UInt8)} (h : ∀ o ∈ l, o.isSome) :
    ∃ bytes : List UInt8, l = bytes.map some := by
  induction l with
  | nil => exact ⟨[], rfl⟩
  | cons o l ih =>
    obtain ⟨b, rfl⟩ := Option.isSome_iff_exists.mp (h o List.mem_cons_self)
    obtain ⟨bytes, rfl⟩ := ih fun o' ho' => h o' (List.mem_cons_of_mem _ ho')
    exact ⟨b :: bytes, rfl⟩

/-- The bytes that the loop reads are among those received. -/
theorem load_interior_congr {src src' : Nat → UInt8} {n : Nat} (hn : 1 ≤ n)
    (h : load src' 0 n = load src 0 n) : load src' 1 (n - 1) = load src 1 (n - 1) := by
  obtain ⟨k, rfl⟩ : ∃ k, n = k + 1 := ⟨n - 1, by omega⟩
  rw [load_succ, load_succ] at h
  exact (List.cons.inj h).2

/-- If every escape is known the result is made of received bytes. -/
theorem dependsOnReceived_of_known {src : Nat → UInt8} {n : Nat} (hn : 2 ≤ n)
    (h : EscapesKnown (load src 1 (n - 1))) : DependsOnReceived src n := by
  intro dest dest' src' hsrc
  obtain ⟨bytes, hbytes⟩ := exists_map_some ((written_isSome_iff _).mpr h)
  have hinterior := load_interior_congr (by omega) hsrc
  have heq := downlinkEscape_eq dest src (n := n) (by omega)
  have heq' := downlinkEscape_eq dest' src' (n := n) (by omega)
  rw [hinterior] at heq'
  rw [hbytes, List.length_map, patch_map_some] at heq heq'
  rw [heq, heq']
  refine ⟨rfl, ?_⟩
  rw [output, output, load_framed, load_framed]

/-- An escape that is not known leaves a byte of the destination as it was. -/
theorem known_of_dependsOnReceived {src : Nat → UInt8} {n : Nat} (hn : 2 ≤ n)
    (h : DependsOnReceived src n) : EscapesKnown (load src 1 (n - 1)) := by
  rw [← written_isSome_iff]
  intro o ho
  obtain ⟨k, hk, hget⟩ := List.mem_iff_getElem.mp ho
  cases o with
  | some b => rfl
  | none =>
    have hnone : (written (load src 1 (n - 1)))[k]? = some none := by
      rw [List.getElem?_eq_getElem hk, hget]
    have hbyte (dest : Nat → UInt8) :
        (output (downlinkEscape dest src n))[1 + k]? = some (dest (1 + k)) := by
      rw [output, getElem?_load _ _ (by rw [downlinkEscape_eq dest src (by omega)]; simp only; omega),
        downlinkEscape_eq dest src (by omega)]
      simp only
      rw [Nat.zero_add, Function.update_of_ne (by omega), Function.update_of_ne (by omega),
        patch_none _ _ hnone]
    have hsame := (h (fun _ => 0) (fun _ => 1) src rfl).2
    have hbytes := hbyte fun _ => 0
    rw [hsame, hbyte] at hbytes
    cases hbytes

/-- The result of un-escaping is a function of the bytes received exactly if every 0xF0 that
the loop comes upon is followed by 0x00, 0x01 or 0x02. -/
theorem downlink_depends_on_received_iff (src : Nat → UInt8) (n : Nat) (hn : 2 ≤ n) :
    DependsOnReceived src n ↔ EscapesKnown (load src 1 (n - 1)) :=
  ⟨known_of_dependsOnReceived hn, dependsOnReceived_of_known hn⟩

/-- The frame F1 F0 02 07 F2. -/
theorem downlink_depends_known_escape :
    DependsOnReceived (store (fun _ => 0) 0 [0xF1, 0xF0, 0x02, 0x07, 0xF2]) 5 :=
  (downlink_depends_on_received_iff (store (fun _ => 0) 0 [0xF1, 0xF0, 0x02, 0x07, 0xF2]) 5
    (by decide)).mpr (by decide)

/-- The frame F1 F0 07 F2: the byte between head and tail is the one the destination held. -/
theorem downlink_unknown_escape :
    (let src := store (fun _ => 0) 0 [0xF1, 0xF0, 0x07, 0xF2]
     output (downlinkEscape (fun _ => 0) src 4) = [0xF1, 0x00, 0xF2] ∧
       output (downlinkEscape (fun _ => 1) src 4) = [0xF1, 0x01, 0xF2] ∧
       ¬ DependsOnReceived src 4) := by
  intro src
  have hold (b : UInt8) : output (downlinkEscape (fun _ => b) src 4) = [0xF1, b, 0xF2] := by
    rw [show ((4 : Int)) = ((4 : Nat) : Int) from rfl, downlinkEscape_eq _ _ (by decide)]
    rfl
  refine ⟨hold 0, hold 1, ?_⟩
  intro h
  exact absurd (known_of_dependsOnReceived (by decide) h) (by decide)

end BackupSoftware.NodeServer
