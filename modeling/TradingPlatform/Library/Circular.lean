import Mathlib.Data.List.Basic

/-!
# `Library.Circular` — a list of items laid around a ring of slots

`Holds slots head items`: from slot `head` on, around the end, the slots hold the items, and all others are empty.
A new item goes behind the last one (`Holds.append`), the first one can be taken out (`Holds.take`), and on a full
ring a new item takes the slot of the first and becomes the last (`Holds.overwrite`).
-/

namespace Circular

variable {α : Type*}

/-- From `head` on, around the end, the slots hold the items. -/
structure Holds (slots : List (Option α)) (head : Nat) (items : List α) : Prop where
  start : head < slots.length
  fits  : items.length ≤ slots.length
  slot  : ∀ i < slots.length, slots[(head + i) % slots.length]? = some items[i]?

/-! ## Indices -/

section Indices

variable {n head i j : Nat}

/-- An index that is less than a round ahead wraps at most once. -/
theorem wrap_eq (hhead : head < n) (hi : i ≤ n) :
    (head + i) % n = if head + i < n then head + i else head + i - n := by
  split
  next hbelow => exact Nat.mod_eq_of_lt hbelow
  next hover =>
    rw [Nat.mod_eq_sub_mod (Nat.le_of_not_lt hover)]
    exact Nat.mod_eq_of_lt (by omega)

/-- Within one round, different offsets are different slots. -/
theorem wrap_ne (hhead : head < n) (hi : i < n) (hj : j < n) (hne : i ≠ j) : (head + i) % n ≠ (head + j) % n := by
  rw [wrap_eq hhead (Nat.le_of_lt hi), wrap_eq hhead (Nat.le_of_lt hj)]
  split <;> split <;> omega

theorem wrap_zero (hhead : head < n) : (head + 0) % n = head := Nat.mod_eq_of_lt hhead

/-- A whole round ahead is the same slot. -/
theorem wrap_round (hhead : head < n) : (head + n) % n = head := by
  rw [Nat.add_mod_right]
  exact Nat.mod_eq_of_lt hhead

theorem wrap_next (n head i : Nat) : ((head + 1) % n + i) % n = (head + (i + 1)) % n := by
  rw [Nat.mod_add_mod, Nat.add_assoc, Nat.add_comm 1 i]

end Indices

/-! ## Items -/

section Items

variable {slots : List (Option α)} {head : Nat} {items rest : List α} {item : α}

theorem Holds.empty {n : Nat} (h : 0 < n) : Holds (List.replicate n (none : Option α)) 0 [] where
  start := by
    rw [List.length_replicate]
    exact h
  fits  := Nat.zero_le _
  slot  := by
    intro i hi
    rw [List.length_replicate] at hi ⊢
    rw [List.getElem?_replicate, if_pos (Nat.mod_lt _ h)]
    rfl

/-- The first item is in the slot at the head. -/
theorem Holds.getElem?_head (h : Holds slots head items) : slots[head]? = some items.head? := by
  have hslot := h.slot 0 (Nat.lt_of_le_of_lt (Nat.zero_le _) h.start)
  rw [wrap_zero h.start] at hslot
  rw [hslot, List.head?_eq_getElem?]

/-- **A new item goes behind the last one.** -/
theorem Holds.append (h : Holds slots head items) (hroom : items.length < slots.length) (item : α) :
    Holds (slots.set ((head + items.length) % slots.length) (some item)) head (items ++ [item]) := by
  refine ⟨?_, ?_, ?_⟩
  · rw [List.length_set]
    exact h.start
  · rw [List.length_set, List.length_append, List.length_singleton]
    exact hroom
  · intro i hi
    rw [List.length_set] at hi ⊢
    by_cases hlast : i = items.length
    · subst hlast
      rw [List.getElem?_set_self (Nat.mod_lt _ (Nat.lt_of_le_of_lt (Nat.zero_le _) hi)), List.getElem?_concat_length]
    · rw [List.getElem?_set_ne (wrap_ne h.start hroom hi (Ne.symm hlast)), h.slot i hi]
      -- before the new item nothing changes, and behind it there is nothing
      rcases Nat.lt_or_gt_of_ne hlast with hbefore | hbehind
      · rw [List.getElem?_append_left hbefore]
      · rw [List.getElem?_eq_none (Nat.le_of_lt hbehind), List.getElem?_eq_none]
        rw [List.length_append, List.length_singleton]
        exact hbehind

/-- **The first item is taken out.** -/
theorem Holds.take (h : Holds slots head (item :: rest)) :
    Holds (slots.set head none) ((head + 1) % slots.length) rest := by
  have hpos : 0 < slots.length := Nat.lt_of_le_of_lt (Nat.zero_le _) h.start
  have hfits : rest.length + 1 ≤ slots.length := h.fits
  refine ⟨?_, ?_, ?_⟩
  · rw [List.length_set]
    exact Nat.mod_lt _ hpos
  · rw [List.length_set]
    exact Nat.le_of_succ_le hfits
  · intro i hi
    rw [List.length_set] at hi ⊢
    rw [wrap_next]
    by_cases hround : i + 1 = slots.length
    · -- the slot that has become free is the last one of the round
      rw [hround, wrap_round h.start, List.getElem?_set_self h.start, List.getElem?_eq_none]
      omega
    · have hnext : i + 1 < slots.length := Nat.lt_of_le_of_ne hi hround
      have hne : head ≠ (head + (i + 1)) % slots.length := by
        have hwrap := wrap_ne h.start hpos hnext (Nat.succ_ne_zero i).symm
        rwa [wrap_zero h.start] at hwrap
      rw [List.getElem?_set_ne hne, h.slot (i + 1) hnext, List.getElem?_cons_succ]

/-- **On a full ring a new item replaces the first one**, and becomes the last. -/
theorem Holds.overwrite (h : Holds slots head (item :: rest)) (hfull : rest.length + 1 = slots.length) (new : α) :
    Holds (slots.set head (some new)) ((head + 1) % slots.length) (rest ++ [new]) := by
  have htaken := h.take
  have hroom : rest.length < (slots.set head none).length := by
    rw [List.length_set]
    omega
  have hput := htaken.append hroom new
  rw [List.length_set, wrap_next, hfull, wrap_round h.start, List.set_set] at hput
  exact hput

end Items

end Circular
