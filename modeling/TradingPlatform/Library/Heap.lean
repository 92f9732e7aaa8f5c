import Mathlib.Data.List.Perm.Basic
import Mathlib.Data.List.MinMax

/-!
# `Library.Heap` — popping a priority queue while its top qualifies

A priority queue holds its elements in no order that is promised; `top` is the one it would give out, a greatest one.
Which of several greatest ones it is depends on the heap, so `top` is a parameter. `popWhile` takes elements out as
long as the top passes a test. What comes out descends (`pairwise_popWhile`), and what is left is under a top that
fails the test (`top_popWhile`), whether or not it passes itself.
-/

namespace Heap

variable {α : Type*}

/-- `top` gives out a greatest element, in the order of the keys. -/
def Greatest {κ : Type*} [LE κ] (key : α → κ) (top : List α → Option α) : Prop :=
  ∀ l, (top l = none ↔ l = []) ∧ ∀ a, top l = some a → a ∈ l ∧ ∀ b ∈ l, key b ≤ key a

variable [DecidableEq α]

/-- Take out the top while it passes, at most `n` times: what came out, and what is left. -/
def popWhile (top : List α → Option α) (passes : α → Bool) : Nat → List α → List α × List α
  | 0, l     => ([], l)
  | n + 1, l =>
    match top l with
    | some a =>
      if passes a then (a :: (popWhile top passes n (l.erase a)).1, (popWhile top passes n (l.erase a)).2)
      else ([], l)
    | none   => ([], l)

variable {top : List α → Option α} {passes : α → Bool}

theorem popWhile_subset (n : Nat) (l : List α) : (popWhile top passes n l).2 ⊆ l := by
  induction n generalizing l with
  | zero => exact List.Subset.refl l
  | succ n ih =>
      unfold popWhile
      split
      next a _ =>
        split
        · exact fun b hb => List.mem_of_mem_erase (ih _ hb)
        · exact List.Subset.refl l
      next => exact List.Subset.refl l

/-- What comes out has passed, and was a top over all that is left. -/
theorem of_mem_popWhile {n : Nat} {l : List α} {a : α} (ha : a ∈ (popWhile top passes n l).1) :
    passes a = true ∧ ∃ l', top l' = some a ∧ (popWhile top passes n l).2 ⊆ l' := by
  induction n generalizing l with
  | zero => cases ha
  | succ n ih =>
      unfold popWhile at ha ⊢
      split at ha
      next b hb =>
        split at ha
        next hpass =>
          rw [if_pos hpass]
          rcases List.mem_cons.mp ha with rfl | ha
          · exact ⟨hpass, l, hb, fun c hc => List.mem_of_mem_erase (popWhile_subset n _ hc)⟩
          · exact ih ha
        next => cases ha
      next => cases ha

section Key

variable {κ : Type*} [LinearOrder κ] {key : α → κ}

/-- Nothing is lost. -/
theorem perm_popWhile (h : Greatest key top) (n : Nat) (l : List α) :
    ((popWhile top passes n l).1 ++ (popWhile top passes n l).2).Perm l := by
  induction n generalizing l with
  | zero => exact List.Perm.refl l
  | succ n ih =>
      unfold popWhile
      split
      next a ha =>
        split
        · have hmem := ((h l).2 a ha).1
          exact ((ih (l.erase a)).cons a).trans (List.perm_cons_erase hmem).symm
        · exact List.Perm.refl l
      next => exact List.Perm.refl l

/-- **What comes out descends.** -/
theorem pairwise_popWhile (h : Greatest key top) (n : Nat) (l : List α) :
    (popWhile top passes n l).1.Pairwise fun a b => key b ≤ key a := by
  induction n generalizing l with
  | zero => exact List.Pairwise.nil
  | succ n ih =>
      unfold popWhile
      split
      next a ha =>
        split
        · refine List.Pairwise.cons (fun b hb => ?_) (ih (l.erase a))
          have hb' : b ∈ l.erase a := (perm_popWhile h n _).subset (List.mem_append_left _ hb)
          exact ((h l).2 a ha).2 b (List.mem_of_mem_erase hb')
        · exact List.Pairwise.nil
      next => exact List.Pairwise.nil

/-- **What is left** is nothing, or is under a top that does not pass. -/
theorem top_popWhile (h : Greatest key top) {n : Nat} {l : List α} (hn : l.length ≤ n) :
    (popWhile top passes n l).2 = [] ∨
      ∃ a, top (popWhile top passes n l).2 = some a ∧ passes a = false := by
  induction n generalizing l with
  | zero => exact .inl (List.eq_nil_of_length_eq_zero (Nat.le_zero.mp hn))
  | succ n ih =>
      unfold popWhile
      cases htop : top l with
      | none => exact .inl ((h l).1.mp htop)
      | some a =>
          dsimp only
          by_cases hpass : passes a = true
          · have hmem := ((h l).2 a htop).1
            have hlength := List.length_erase_of_mem hmem
            rw [if_pos hpass]
            exact ih (by omega)
          · rw [if_neg hpass]
            exact .inr ⟨a, htop, Bool.not_eq_true _ ▸ hpass⟩

/-- What would pass comes out when nothing that does not pass is as great. -/
theorem all_out_of_lt (h : Greatest key top) {n : Nat} {l : List α} (hn : l.length ≤ n)
    (hlt : ∀ a ∈ l, passes a = false → ∀ b ∈ l, passes b = true → key a < key b) :
    ∀ b ∈ (popWhile top passes n l).2, passes b = false := by
  intro b hb
  have hsub : (popWhile top passes n l).2 ⊆ l := popWhile_subset n l
  rcases @top_popWhile _ _ top passes _ _ key h n l hn with hnil | ⟨a, ha, hfail⟩
  · rw [hnil] at hb
    cases hb
  · obtain ⟨hmem, hgreatest⟩ := (h _).2 a ha
    by_contra hpass
    have hbelow := hlt a (hsub hmem) hfail b (hsub hb) (Bool.of_not_eq_false hpass)
    exact absurd (hgreatest b hb) (not_le.mpr hbelow)

/-- A heap may give out, of the greatest ones, first what does not pass; then what would pass stays behind anything
    as great that does not. -/
theorem all_out_iff {key : α → Nat} {n : Nat} {l : List α} (hn : l.length ≤ n) :
    (∀ top, Greatest key top → ∀ b ∈ (popWhile top passes n l).2, passes b = false) ↔
      ∀ a ∈ l, passes a = false → ∀ b ∈ l, passes b = true → key a < key b := by
  refine ⟨fun hall a ha hfail b hb hpass => ?_, fun hlt top h => all_out_of_lt h hn hlt⟩
  by_contra hle
  let rank : α → Nat := fun c => 2 * key c + if passes c = true then 0 else 1
  have hgreatest : Greatest key (List.argmax rank) := by
    refine fun l => ⟨List.argmax_eq_none, fun c hc => ⟨List.argmax_mem hc, fun d hd => ?_⟩⟩
    have hrank : rank d ≤ rank c := List.le_of_mem_argmax hd hc
    dsimp only [rank] at hrank
    split at hrank <;> split at hrank <;> omega
  have hperm := @perm_popWhile _ _ _ passes _ _ key hgreatest n l
  have hleft := hall _ hgreatest
  -- the one that does not pass never comes out, and the other one not before it
  have ha' : a ∈ (popWhile (List.argmax rank) passes n l).2 := by
    rcases List.mem_append.mp (hperm.symm.subset ha) with hout | hleft
    · rw [(of_mem_popWhile hout).1] at hfail
      cases hfail
    · exact hleft
  rcases List.mem_append.mp (hperm.symm.subset hb) with hout | hb'
  · obtain ⟨-, l', htop, hl'⟩ := of_mem_popWhile hout
    have hrank : rank a ≤ rank b := List.le_of_mem_argmax (hl' ha') htop
    dsimp only [rank] at hrank
    rw [hfail, hpass] at hrank
    simp only [if_true, Bool.false_eq_true, if_false] at hrank
    omega
  · rw [hleft b hb'] at hpass
    cases hpass

/-- What is under nothing that fails comes out. -/
theorem out_of_all (h : Greatest key top) {n : Nat} {l : List α} (hn : l.length ≤ n) {b : α} (hb : b ∈ l)
    (hall : ∀ a ∈ l, key b ≤ key a → passes a = true) : b ∈ (popWhile top passes n l).1 := by
  rcases List.mem_append.mp ((perm_popWhile h n l).symm.subset hb) with hout | hleft
  · exact hout
  · rcases @top_popWhile _ _ top passes _ _ key h n l hn with hnil | ⟨a, ha, hfail⟩
    · rw [hnil] at hleft
      cases hleft
    · obtain ⟨hmem, hgreatest⟩ := (h _).2 a ha
      have hpass := hall a (popWhile_subset n l hmem) (hgreatest b hleft)
      rw [hfail] at hpass
      cases hpass

end Key

section Yielding

/-- The heap that gives out `b` after all that are as great. -/
def yielding (key : α → Nat) (b : α) : List α → Option α := List.argmax fun c => 2 * key c + if c = b then 0 else 1

variable {key : α → Nat} {b : α}

theorem greatest_yielding : Greatest key (yielding key b) := by
  refine fun l => ⟨List.argmax_eq_none, fun c hc => ⟨List.argmax_mem hc, fun d hd => ?_⟩⟩
  have hrank := List.le_of_mem_argmax hd hc
  split at hrank <;> split at hrank <;> omega

/-- There it stays under anything as great that fails. -/
theorem not_out_yielding {n : Nat} {l : List α} {a : α} (ha : a ∈ l) (hfail : passes a = false) (hle : key b ≤ key a) :
    b ∉ (popWhile (yielding key b) passes n l).1 := by
  intro hout
  obtain ⟨hpass, l', htop, hl'⟩ := of_mem_popWhile hout
  have hne : a ≠ b := by
    rintro rfl
    exact Bool.false_ne_true (hfail.symm.trans hpass)
  -- the one that fails never comes out
  have hleft : a ∈ (popWhile (yielding key b) passes n l).2 := by
    rcases List.mem_append.mp ((perm_popWhile greatest_yielding n l).symm.subset ha) with hout' | hleft
    · exact absurd (hfail.symm.trans (of_mem_popWhile hout').1) Bool.false_ne_true
    · exact hleft
  have hrank := List.le_of_mem_argmax (hl' hleft) htop
  rw [if_neg hne, if_pos rfl] at hrank
  omega

end Yielding

end Heap
