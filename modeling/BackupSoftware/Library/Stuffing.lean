import Mathlib.Data.List.Basic
import Mathlib.Tactic.Common

/-!
# Byte stuffing and delimited frames

Some symbols are reserved. Inside a frame each of them is written as an escape
symbol and a code, so that the delimiters of a frame appear nowhere else and a
stream of frames can be cut at them.
-/

namespace BackupSoftware.Library

variable {α : Type}

/-- An escape symbol and a table that gives each reserved symbol its code. No code is a
reserved symbol. -/
structure Stuffing (α : Type) where
  esc : α
  code : α → Option α
  code_code : ∀ a c, code a = some c → code c = none

namespace Stuffing

variable (S : Stuffing α)

def stuffSymbol (a : α) : List α :=
  match S.code a with
  | some c => [S.esc, c]
  | none => [a]

def stuff (l : List α) : List α := l.flatMap S.stuffSymbol

@[simp] theorem stuff_nil : S.stuff [] = [] := rfl

@[simp] theorem stuff_cons (a : α) (l : List α) : S.stuff (a :: l) = S.stuffSymbol a ++ S.stuff l :=
  rfl

theorem stuffSymbol_some {a c : α} (h : S.code a = some c) : S.stuffSymbol a = [S.esc, c] := by
  simp only [stuffSymbol, h]

theorem stuffSymbol_none {a : α} (h : S.code a = none) : S.stuffSymbol a = [a] := by
  simp only [stuffSymbol, h]

/-- The only reserved symbol in stuffed text is the escape symbol. -/
theorem eq_esc_of_mem_stuff {l : List α} {b : α} (hb : b ∈ S.stuff l) (hres : S.code b ≠ none) :
    b = S.esc := by
  obtain ⟨a, -, hmem⟩ := List.mem_flatMap.mp hb
  cases hcode : S.code a with
  | none =>
    rw [S.stuffSymbol_none hcode, List.mem_singleton] at hmem
    rw [hmem] at hres
    exact absurd hcode hres
  | some c =>
    rw [S.stuffSymbol_some hcode] at hmem
    rcases List.mem_pair.mp hmem with h | h
    · exact h
    · rw [h] at hres
      exact absurd (S.code_code a c hcode) hres

/-- Each reserved symbol costs one more symbol. -/
theorem length_stuff (l : List α) :
    (S.stuff l).length = l.length + l.countP fun a => (S.code a).isSome := by
  induction l with
  | nil => rfl
  | cons a l ih =>
    rw [stuff_cons, List.length_append, ih, List.length_cons, List.countP_cons]
    cases hcode : S.code a with
    | none =>
      rw [S.stuffSymbol_none hcode]
      simp only [List.length_singleton, Option.isSome_none, Bool.false_eq_true, ↓reduceIte]
      omega
    | some c =>
      rw [S.stuffSymbol_some hcode]
      simp only [List.length_cons, List.length_nil, Option.isSome_some, ↓reduceIte]
      omega

/-- Every escape symbol that is not itself the code of an earlier one is followed by an
admissible code. -/
def Paired [DecidableEq α] (esc : α) (ok : α → Prop) : List α → Prop
  | [] => True
  | [a] => a ≠ esc
  | a :: c :: x => if a = esc then ok c ∧ Paired esc ok x else Paired esc ok (c :: x)

instance decidablePaired [DecidableEq α] (esc : α) (ok : α → Prop) [DecidablePred ok] :
    DecidablePred (Paired esc ok)
  | [] => isTrue trivial
  | [a] => inferInstanceAs (Decidable (a ≠ esc))
  | a :: c :: x =>
      have : Decidable (Paired esc ok x) := decidablePaired esc ok x
      have : Decidable (Paired esc ok (c :: x)) := decidablePaired esc ok (c :: x)
      inferInstanceAs (Decidable (if a = esc then ok c ∧ Paired esc ok x else Paired esc ok (c :: x)))

/-- Text whose escape symbols are paired with codes, and whose other symbols are not
reserved, is stuffed text. -/
theorem exists_stuff [DecidableEq α] {x : List α}
    (hplain : ∀ b ∈ x, b ≠ S.esc → S.code b = none)
    (hpaired : Paired S.esc (fun c => ∃ a, S.code a = some c) x) : ∃ l, S.stuff l = x := by
  induction x using Paired.induct S.esc with
  | case1 => exact ⟨[], rfl⟩
  | case2 a =>
    have hcode := hplain a List.mem_cons_self hpaired
    exact ⟨[a], by rw [stuff_cons, S.stuffSymbol_none hcode]; rfl⟩
  | case3 c x ih =>
    rw [Paired, if_pos rfl] at hpaired
    obtain ⟨⟨a, ha⟩, hrest⟩ := hpaired
    obtain ⟨l, rfl⟩ := ih (fun b hb => hplain b (by simp [hb])) hrest
    exact ⟨a :: l, by rw [stuff_cons, S.stuffSymbol_some ha]; rfl⟩
  | case4 a c x hne ih =>
    rw [Paired, if_neg hne] at hpaired
    obtain ⟨l, hl⟩ := ih (fun b hb => hplain b (List.mem_cons_of_mem _ hb)) hpaired
    have hcode := hplain a List.mem_cons_self hne
    exact ⟨a :: l, by rw [stuff_cons, S.stuffSymbol_none hcode, hl]; rfl⟩

end Stuffing

/-- The frames of a stream, from a head to the next tail. A head inside a frame starts
the frame again; what is outside of frames is skipped. -/
def cutFrames [DecidableEq α] (hd tl : α) : Option (List α) → List α → List (List α)
  | _, [] => []
  | none, b :: x => if b = hd then cutFrames hd tl (some [b]) x else cutFrames hd tl none x
  | some f, b :: x =>
      if b = hd then cutFrames hd tl (some [b]) x
      else if b = tl then (f ++ [b]) :: cutFrames hd tl none x
      else cutFrames hd tl (some (f ++ [b])) x

section Cut

variable [DecidableEq α] {hd tl : α}

/-- Inside a frame the cutter collects everything up to the tail. -/
theorem cutFrames_body (hne : hd ≠ tl) {body : List α} (hbody : ∀ b ∈ body, b ≠ hd ∧ b ≠ tl)
    (f x : List α) :
    cutFrames hd tl (some f) (body ++ tl :: x) = (f ++ body ++ [tl]) :: cutFrames hd tl none x := by
  induction body generalizing f with
  | nil => rw [List.nil_append, cutFrames, if_neg hne.symm, if_pos rfl, List.append_nil]
  | cons b body ih =>
    obtain ⟨hbhd, hbtl⟩ := hbody b List.mem_cons_self
    rw [List.cons_append, cutFrames, if_neg hbhd, if_neg hbtl,
      ih fun b' hb' => hbody b' (List.mem_cons_of_mem _ hb')]
    simp

/-- Frames written one after another, with no delimiter inside, are cut apart again. -/
theorem cutFrames_flatten (hne : hd ≠ tl) {frames : List (List α)}
    (hframes : ∀ f ∈ frames, ∃ body, f = hd :: body ++ [tl] ∧ ∀ b ∈ body, b ≠ hd ∧ b ≠ tl) :
    cutFrames hd tl none frames.flatten = frames := by
  induction frames with
  | nil => rfl
  | cons f frames ih =>
    obtain ⟨body, rfl, hbody⟩ := hframes f List.mem_cons_self
    have hstream : ((hd :: body ++ [tl]) :: frames).flatten =
        hd :: (body ++ tl :: frames.flatten) := by simp
    rw [hstream, cutFrames, if_pos rfl, cutFrames_body hne hbody,
      ih fun f' hf' => hframes f' (List.mem_cons_of_mem _ hf')]
    rfl

end Cut

end BackupSoftware.Library
