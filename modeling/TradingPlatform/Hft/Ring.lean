import TradingPlatform.Hft.OrderBook
import Mathlib.Logic.Function.Basic

/-!
# `Hft.Ring` — the ring between a feed and the book thread

A fixed array of `RING_BUFFER_SIZE` slots with a read index `head` and a write index `tail`; one slot always
stays free, so `head = tail` means empty. One producer pushes, one consumer pops. Each call is one step here;
the array is a function on indices.
-/

namespace TradingPlatform
namespace Hft

def ringBufferSize : Nat := 65536

/-- The zeroed update the slots start with. -/
def FastUpdate.zeroed : FastUpdate := .ofLevels 0 0 0 [] [] false

structure RingBuffer where
  buffer : Nat → FastUpdate
  head   : Nat
  tail   : Nat

namespace RingBuffer

def new : RingBuffer := { buffer := fun _ => .zeroed, head := 0, tail := 0 }

/-- `false` when the ring is full; the update is then not stored. -/
def push (r : RingBuffer) (update : FastUpdate) : RingBuffer × Bool :=
  if (r.tail + 1) % ringBufferSize = r.head then (r, false)
  else ({ r with buffer := Function.update r.buffer r.tail update
                 tail   := (r.tail + 1) % ringBufferSize }, true)

def pop (r : RingBuffer) : RingBuffer × Option FastUpdate :=
  if r.head = r.tail then (r, none)
  else ({ r with head := (r.head + 1) % ringBufferSize }, some (r.buffer r.head))

/-- Everything pushed has been popped. -/
def Drained (r : RingBuffer) : Prop := r.head = r.tail

instance (r : RingBuffer) : Decidable r.Drained := inferInstanceAs (Decidable (_ = _))

/-! ## What holds of every slot -/

/-- Every slot, stale ones included. -/
def Slots (P : FastUpdate → Prop) (r : RingBuffer) : Prop := ∀ i, P (r.buffer i)

theorem Slots.push {P : FastUpdate → Prop} {r : RingBuffer} (h : r.Slots P) {update : FastUpdate}
    (hu : P update) : (r.push update).1.Slots P := by
  unfold RingBuffer.push
  split
  · exact h
  · intro i
    show P (Function.update r.buffer r.tail update i)
    by_cases hi : i = r.tail
    · subst hi
      rw [Function.update_self]
      exact hu
    · rw [Function.update_of_ne hi]
      exact h i

theorem Slots.pop {P : FastUpdate → Prop} {r : RingBuffer} (h : r.Slots P) :
    r.pop.1.Slots P ∧ ∀ update ∈ r.pop.2, P update := by
  unfold RingBuffer.pop
  split
  · exact ⟨h, by intro update hu; cases hu⟩
  · refine ⟨h, fun update hu => ?_⟩
    obtain rfl := Option.some.inj hu
    exact h r.head

/-! ## The ring as a queue -/

/-- Both indices point into the array. -/
structure InRange (r : RingBuffer) : Prop where
  head : r.head < ringBufferSize
  tail : r.tail < ringBufferSize

/-- The number of updates that wait. -/
def size (r : RingBuffer) : Nat := (r.tail + ringBufferSize - r.head) % ringBufferSize

/-- The updates that wait, oldest first. -/
def contents (r : RingBuffer) : List FastUpdate :=
  (List.range r.size).map fun i => r.buffer ((r.head + i) % ringBufferSize)

theorem inRange_new : InRange new := ⟨by decide, by decide⟩

@[simp] theorem contents_new : new.contents = [] := by decide

theorem InRange.push {r : RingBuffer} (h : r.InRange) (update : FastUpdate) : (r.push update).1.InRange := by
  unfold RingBuffer.push
  split
  · exact h
  · exact ⟨h.head, Nat.mod_lt _ (by decide)⟩

theorem InRange.pop {r : RingBuffer} (h : r.InRange) : r.pop.1.InRange := by
  unfold RingBuffer.pop
  split
  · exact h
  · exact ⟨Nat.mod_lt _ (by decide), h.tail⟩

/-- The slot at the tail is not one of those that wait. -/
theorem slot_ne_tail {r : RingBuffer} (h : r.InRange) {i : Nat} (hi : i < r.size) :
    (r.head + i) % ringBufferSize ≠ r.tail := by
  obtain ⟨hhead, htail⟩ := h
  unfold size ringBufferSize at hi
  unfold ringBufferSize at *
  omega

/-- **A push that is accepted appends.** -/
theorem contents_push {r : RingBuffer} (h : r.InRange) {update : FastUpdate} (hpush : (r.push update).2 = true) :
    (r.push update).1.contents = r.contents ++ [update] := by
  have hwaits : ∀ i < r.size, (r.head + i) % ringBufferSize ≠ r.tail := fun i hi => slot_ne_tail h hi
  obtain ⟨hhead, htail⟩ := h
  unfold RingBuffer.push at hpush ⊢
  split at hpush
  next => cases hpush
  next hroom =>
    rw [if_neg hroom]
    unfold ringBufferSize at hhead htail hroom
    have hsize : size { r with buffer := Function.update r.buffer r.tail update
                               tail   := (r.tail + 1) % ringBufferSize } = r.size + 1 := by
      unfold size ringBufferSize
      simp only
      omega
    unfold contents
    rw [hsize, List.range_succ, List.map_append, List.map_singleton]
    congr 1
    · -- the slots before the tail are not written
      apply List.map_congr_left
      intro i hi
      exact Function.update_of_ne (hwaits i (List.mem_range.mp hi)) ..
    · have hlast : (r.head + r.size) % ringBufferSize = r.tail := by
        unfold size ringBufferSize
        omega
      simp only [hlast, Function.update_self]

/-- **A pop takes the oldest.** -/
theorem contents_pop {r : RingBuffer} (h : r.InRange) :
    r.contents = r.pop.2.toList ++ r.pop.1.contents := by
  obtain ⟨hhead, htail⟩ := h
  unfold RingBuffer.pop
  split
  next => exact (List.nil_append _).symm
  next hne =>
    have hfirst : (r.head + 0) % ringBufferSize = r.head := by
      rw [Nat.add_zero]
      exact Nat.mod_eq_of_lt hhead
    unfold ringBufferSize at hhead htail
    have hsize : r.size = size { r with head := (r.head + 1) % ringBufferSize } + 1 := by
      unfold size ringBufferSize
      simp only
      omega
    unfold contents
    rw [hsize, List.range_succ_eq_map, List.map_cons, List.map_map, hfirst, Option.toList_some, List.singleton_append]
    congr 1
    apply List.map_congr_left
    intro i _
    simp only [Function.comp_apply]
    congr 1
    unfold ringBufferSize
    omega

theorem contents_of_drained {r : RingBuffer} (h : r.Drained) : r.contents = [] := by
  have hhead : r.head = r.tail := h
  have hsize : r.size = 0 := by
    unfold size
    rw [hhead, Nat.add_sub_cancel_left]
    exact Nat.mod_self _
  unfold contents
  rw [hsize]
  rfl

/-- Up to `n` pops, until the ring is empty. -/
def popMany (r : RingBuffer) : Nat → RingBuffer × List FastUpdate
  | 0     => (r, [])
  | n + 1 =>
    match r.pop with
    | (r', some update) => ((popMany r' n).1, update :: (popMany r' n).2)
    | (r', none)        => (r', [])

theorem contents_popMany {r : RingBuffer} (h : r.InRange) (n : Nat) :
    r.contents = (r.popMany n).2 ++ (r.popMany n).1.contents ∧ (r.popMany n).1.InRange := by
  induction n generalizing r with
  | zero => exact ⟨(List.nil_append _).symm, h⟩
  | succ n ih =>
      have hfirst := contents_pop h
      have hrange := h.pop
      unfold popMany
      cases hpop : r.pop with
      | mk r' popped =>
          rw [hpop] at hfirst hrange
          cases popped with
          | none => exact ⟨hfirst, hrange⟩
          | some update =>
              obtain ⟨hrest, hrange'⟩ := ih hrange
              refine ⟨?_, hrange'⟩
              rw [hfirst, hrest, Option.toList_some, List.singleton_append, List.cons_append]

end RingBuffer
end Hft
end TradingPlatform
