import TradingPlatform.Hft.Ring
import TradingPlatform.Library.Machine

/-!
# `Hft.Spsc` — the ring under two threads

One producer calls `push`, one consumer calls `pop`; their loads, copies and stores interleave in any order. A
copy of an update into or out of a slot is not atomic: it takes two steps, a slot that is being written holds
anything, and a slot that changes while it is read yields anything.

The invariant `Consistent` ties what either thread remembers to the two indices: a producer that has found room
keeps it, a consumer that has found an update keeps it, and so they never touch the same slot.
-/

namespace TradingPlatform
namespace Hft

deriving instance DecidableEq for FastUpdate

namespace RingBuffer

/-- Where the producer is in `push`. -/
inductive Pushing where
  | idle
  /-- `tail` has been loaded. -/
  | loadedTail (update : FastUpdate) (tail : Nat)
  /-- `head` has been loaded, and there is room. -/
  | writing (update : FastUpdate) (tail : Nat)
  /-- The slot is written in part. -/
  | halfWritten (update : FastUpdate) (tail : Nat)
  | written (update : FastUpdate) (tail : Nat)

/-- Where the consumer is in `pop`. -/
inductive Popping where
  | idle
  /-- `head` has been loaded. -/
  | loadedHead (head : Nat)
  /-- `tail` has been loaded, and there is an update. -/
  | reading (head : Nat)
  /-- The slot is read in part, when it held `seen`. -/
  | halfRead (head : Nat) (seen : FastUpdate)
  | read (head : Nat) (update : FastUpdate)

/-- The slot the producer writes. -/
def Pushing.slot : Pushing → Option Nat
  | .writing _ tail     => some tail
  | .halfWritten _ tail => some tail
  | .written _ tail     => some tail
  | _                   => none

/-- The slot the consumer reads. -/
def Popping.slot : Popping → Option Nat
  | .reading head    => some head
  | .halfRead head _ => some head
  | .read head _     => some head
  | _                => none

/-- The ring with its two threads. -/
structure Threads where
  ring     : RingBuffer
  producer : Pushing
  consumer : Popping

def Threads.new : Threads := { ring := .new, producer := .idle, consumer := .idle }

/-- What can happen next. `partly` is what a slot holds in the middle of a write, `torn` what is read from a slot
    that changed meanwhile. A thread in a call does not start another. -/
inductive Turn where
  | push (update : FastUpdate)
  | producer (partly : FastUpdate)
  | pop
  | consumer (torn : FastUpdate)

/-- What the calls return: `true` with the update accepted, `false` with the update refused, the update popped, or
    `None`. -/
inductive Returned where
  | accepted (update : FastUpdate)
  | refused (update : FastUpdate)
  | popped (update : FastUpdate)
  | empty

/-- One load, half a copy, or one store. -/
def threadsStep (s : Threads) : Turn → Threads × List Returned
  | .push update =>
    match s.producer with
    | .idle => ({ s with producer := .loadedTail update s.ring.tail }, [])
    | _     => (s, [])
  | .producer partly =>
    match s.producer with
    | .idle => (s, [])
    | .loadedTail update tail =>
      if (tail + 1) % ringBufferSize = s.ring.head then ({ s with producer := .idle }, [.refused update])
      else ({ s with producer := .writing update tail }, [])
    | .writing update tail =>
      ({ s with ring     := { s.ring with buffer := Function.update s.ring.buffer tail partly }
                producer := .halfWritten update tail }, [])
    | .halfWritten update tail =>
      ({ s with ring     := { s.ring with buffer := Function.update s.ring.buffer tail update }
                producer := .written update tail }, [])
    | .written update tail =>
      ({ s with ring     := { s.ring with tail := (tail + 1) % ringBufferSize }
                producer := .idle }, [.accepted update])
  | .pop =>
    match s.consumer with
    | .idle => ({ s with consumer := .loadedHead s.ring.head }, [])
    | _     => (s, [])
  | .consumer torn =>
    match s.consumer with
    | .idle => (s, [])
    | .loadedHead head =>
      if head = s.ring.tail then ({ s with consumer := .idle }, [.empty])
      else ({ s with consumer := .reading head }, [])
    | .reading head => ({ s with consumer := .halfRead head (s.ring.buffer head) }, [])
    | .halfRead head seen =>
      ({ s with consumer := .read head (if s.ring.buffer head = seen then seen else torn) }, [])
    | .read head update =>
      ({ s with ring     := { s.ring with head := (head + 1) % ringBufferSize }
                consumer := .idle }, [.popped update])

/-- The updates accepted so far, in order. -/
def acceptedOf (out : List Returned) : List FastUpdate :=
  out.filterMap fun
    | .accepted update => some update
    | _                => none

/-- The updates popped so far, in order. -/
def poppedOf (out : List Returned) : List FastUpdate :=
  out.filterMap fun
    | .popped update => some update
    | _              => none

theorem acceptedOf_append (out out' : List Returned) : acceptedOf (out ++ out') = acceptedOf out ++ acceptedOf out' :=
  List.filterMap_append

theorem poppedOf_append (out out' : List Returned) : poppedOf (out ++ out') = poppedOf out ++ poppedOf out' :=
  List.filterMap_append

/-! ## The ring step by step -/

@[simp] theorem length_contents (r : RingBuffer) : r.contents.length = r.size := by
  unfold contents
  rw [List.length_map, List.length_range]

/-- A slot is free as long as `tail` has not reached it. -/
def HasRoom (r : RingBuffer) : Prop := (r.tail + 1) % ringBufferSize ≠ r.head

/-- Without room, all slots but one wait. -/
theorem size_of_full {r : RingBuffer} (h : r.InRange) (hfull : ¬ r.HasRoom) : r.size = ringBufferSize - 1 := by
  obtain ⟨hhead, htail⟩ := h
  unfold HasRoom at hfull
  unfold size
  unfold ringBufferSize at *
  omega

theorem size_lt (r : RingBuffer) : r.size < ringBufferSize := Nat.mod_lt _ (by decide)

/-- The slot at the tail is not waited for. -/
theorem contents_write {r : RingBuffer} (h : r.InRange) (update : FastUpdate) :
    contents { r with buffer := Function.update r.buffer r.tail update } = r.contents := by
  unfold contents
  apply List.map_congr_left
  intro i hi
  exact Function.update_of_ne (slot_ne_tail h (List.mem_range.mp hi)) ..

/-- Storing `tail` publishes the slot. -/
theorem contents_store_tail {r : RingBuffer} (h : r.InRange) (hroom : r.HasRoom) :
    contents { r with tail := (r.tail + 1) % ringBufferSize } = r.contents ++ [r.buffer r.tail] := by
  have hself : Function.update r.buffer r.tail (r.buffer r.tail) = r.buffer := Function.update_eq_self ..
  have hpush : r.push (r.buffer r.tail) = ({ r with tail := (r.tail + 1) % ringBufferSize }, true) := by
    unfold RingBuffer.push
    rw [if_neg hroom, hself]
  have happend := contents_push h (congrArg Prod.snd hpush)
  rw [hpush] at happend
  exact happend

/-- Storing `head` gives the slot back. -/
theorem contents_store_head {r : RingBuffer} (h : r.InRange) (hne : r.head ≠ r.tail) :
    r.contents = r.buffer r.head :: contents { r with head := (r.head + 1) % ringBufferSize } := by
  have hpop : r.pop = ({ r with head := (r.head + 1) % ringBufferSize }, some (r.buffer r.head)) := by
    unfold RingBuffer.pop
    rw [if_neg hne]
  have hfront := contents_pop h
  rw [hpop] at hfront
  exact hfront

/-- What has been read stays to be popped while the producer stores. -/
theorem ne_of_room {r : RingBuffer} (hroom : r.HasRoom) : r.head ≠ (r.tail + 1) % ringBufferSize :=
  fun heq => hroom heq.symm

/-- What has been found free stays free while the consumer stores. -/
theorem room_of_ne {r : RingBuffer} (h : r.InRange) (hne : r.head ≠ r.tail) :
    HasRoom { r with head := (r.head + 1) % ringBufferSize } := by
  obtain ⟨hhead, htail⟩ := h
  unfold HasRoom
  unfold ringBufferSize at *
  simp only
  omega

/-! ## The invariant -/

/-- What the producer remembers of the ring. -/
def Pushing.Knows (r : RingBuffer) : Pushing → Prop
  | .idle                    => True
  | .loadedTail _ tail       => tail = r.tail
  | .writing _ tail          => tail = r.tail ∧ r.HasRoom
  | .halfWritten _ tail      => tail = r.tail ∧ r.HasRoom
  | .written update tail     => tail = r.tail ∧ r.HasRoom ∧ r.buffer r.tail = update

/-- What the consumer remembers of the ring. -/
def Popping.Knows (r : RingBuffer) : Popping → Prop
  | .idle               => True
  | .loadedHead head    => head = r.head
  | .reading head       => head = r.head ∧ r.head ≠ r.tail
  | .halfRead head seen => head = r.head ∧ r.head ≠ r.tail ∧ r.buffer r.head = seen
  | .read head update   => head = r.head ∧ r.head ≠ r.tail ∧ r.buffer r.head = update

/-- Between the threads, the ring and what the calls have returned so far: accepted is what was popped and what
    waits in the ring, in this order. -/
structure Consistent (s : Threads) (out : List Returned) : Prop where
  range    : s.ring.InRange
  producer : s.producer.Knows s.ring
  consumer : s.consumer.Knows s.ring
  fifo     : acceptedOf out = poppedOf out ++ s.ring.contents

theorem consistent_new : Consistent .new [] where
  range    := inRange_new
  producer := trivial
  consumer := trivial
  fifo     := by rw [show Threads.new.ring = new from rfl, contents_new]; rfl

/-- A write at the tail is not seen by the consumer. -/
theorem Popping.Knows.write {r : RingBuffer} {consumer : Popping} (h : consumer.Knows r) (update : FastUpdate) :
    consumer.Knows { r with buffer := Function.update r.buffer r.tail update } := by
  cases consumer with
  | idle => trivial
  | loadedHead head => exact h
  | reading head => exact h
  | halfRead head seen =>
      obtain ⟨hhead, hne, hseen⟩ := h
      exact ⟨hhead, hne, (Function.update_of_ne hne ..).trans hseen⟩
  | read head update' =>
      obtain ⟨hhead, hne, hread⟩ := h
      exact ⟨hhead, hne, (Function.update_of_ne hne ..).trans hread⟩

/-- Nor does a stored tail take away what the consumer has found. -/
theorem Popping.Knows.store_tail {r : RingBuffer} {consumer : Popping} (h : consumer.Knows r) (hroom : r.HasRoom) :
    consumer.Knows { r with tail := (r.tail + 1) % ringBufferSize } := by
  cases consumer with
  | idle => trivial
  | loadedHead head => exact h
  | reading head => exact ⟨h.1, ne_of_room hroom⟩
  | halfRead head seen => exact ⟨h.1, ne_of_room hroom, h.2.2⟩
  | read head update => exact ⟨h.1, ne_of_room hroom, h.2.2⟩

/-- A stored head takes nothing away that the producer has found. -/
theorem Pushing.Knows.store_head {r : RingBuffer} {producer : Pushing} (hr : r.InRange) (h : producer.Knows r)
    (hne : r.head ≠ r.tail) : producer.Knows { r with head := (r.head + 1) % ringBufferSize } := by
  cases producer with
  | idle => trivial
  | loadedTail update tail => exact h
  | writing update tail => exact ⟨h.1, room_of_ne hr hne⟩
  | halfWritten update tail => exact ⟨h.1, room_of_ne hr hne⟩
  | written update tail => exact ⟨h.1, room_of_ne hr hne, h.2.2⟩

theorem Consistent.producer_step {s : Threads} {out : List Returned} (h : Consistent s out) (partly : FastUpdate) :
    Consistent (threadsStep s (.producer partly)).1 (out ++ (threadsStep s (.producer partly)).2) := by
  obtain ⟨ring, producer, consumer⟩ := s
  obtain ⟨hrange, hproducer, hconsumer, hfifo⟩ := h
  simp only at hrange hproducer hconsumer hfifo
  cases producer with
  | idle => exact ⟨hrange, hproducer, hconsumer, by simpa [threadsStep] using hfifo⟩
  | loadedTail update tail =>
      obtain rfl : tail = ring.tail := hproducer
      unfold threadsStep
      simp only
      split
      next => exact ⟨hrange, trivial, hconsumer, by simpa [acceptedOf, poppedOf] using hfifo⟩
      next hroom => exact ⟨hrange, ⟨rfl, hroom⟩, hconsumer, by simpa using hfifo⟩
  | writing update tail =>
      obtain ⟨rfl, hroom⟩ := hproducer
      have hwrite := contents_write hrange partly
      exact ⟨⟨hrange.head, hrange.tail⟩, ⟨rfl, hroom⟩, hconsumer.write partly,
        by simpa [threadsStep, hwrite] using hfifo⟩
  | halfWritten update tail =>
      obtain ⟨rfl, hroom⟩ := hproducer
      have hwrite := contents_write hrange update
      exact ⟨⟨hrange.head, hrange.tail⟩, ⟨rfl, hroom, Function.update_self ..⟩, hconsumer.write update,
        by simpa [threadsStep, hwrite] using hfifo⟩
  | written update tail =>
      obtain ⟨rfl, hroom, hupdate⟩ := hproducer
      have hstore := contents_store_tail hrange hroom
      rw [hupdate] at hstore
      refine ⟨⟨hrange.head, Nat.mod_lt _ (by decide)⟩, trivial, hconsumer.store_tail hroom, ?_⟩
      show acceptedOf (out ++ [.accepted update]) = poppedOf (out ++ [.accepted update])
        ++ contents { ring with tail := (ring.tail + 1) % ringBufferSize }
      rw [acceptedOf_append, poppedOf_append, hfifo, hstore]
      simp [acceptedOf, poppedOf]

theorem Consistent.consumer_step {s : Threads} {out : List Returned} (h : Consistent s out) (torn : FastUpdate) :
    Consistent (threadsStep s (.consumer torn)).1 (out ++ (threadsStep s (.consumer torn)).2) := by
  obtain ⟨ring, producer, consumer⟩ := s
  obtain ⟨hrange, hproducer, hconsumer, hfifo⟩ := h
  simp only at hrange hproducer hconsumer hfifo
  cases consumer with
  | idle => exact ⟨hrange, hproducer, hconsumer, by simpa [threadsStep] using hfifo⟩
  | loadedHead head =>
      obtain rfl : head = ring.head := hconsumer
      unfold threadsStep
      simp only
      split
      next => exact ⟨hrange, hproducer, trivial, by simpa [acceptedOf, poppedOf] using hfifo⟩
      next hne => exact ⟨hrange, hproducer, ⟨rfl, hne⟩, by simpa using hfifo⟩
  | reading head =>
      obtain ⟨rfl, hne⟩ := hconsumer
      exact ⟨hrange, hproducer, ⟨rfl, hne, rfl⟩, by simpa [threadsStep] using hfifo⟩
  | halfRead head seen =>
      -- the slot has not changed since the first half was read
      obtain ⟨rfl, hne, rfl⟩ := hconsumer
      exact ⟨hrange, hproducer, ⟨rfl, hne, (if_pos rfl).symm⟩, by simpa [threadsStep] using hfifo⟩
  | read head update =>
      obtain ⟨rfl, hne, rfl⟩ := hconsumer
      have hstore := contents_store_head hrange hne
      refine ⟨⟨Nat.mod_lt _ (by decide), hrange.tail⟩, hproducer.store_head hrange hne, trivial, ?_⟩
      show acceptedOf (out ++ [.popped (ring.buffer ring.head)])
        = poppedOf (out ++ [.popped (ring.buffer ring.head)])
          ++ contents { ring with head := (ring.head + 1) % ringBufferSize }
      rw [acceptedOf_append, poppedOf_append, hfifo, hstore]
      simp [acceptedOf, poppedOf]

/-- **Every step keeps the invariant**, whichever thread takes it. -/
theorem Consistent.step {s : Threads} {out : List Returned} (h : Consistent s out) (turn : Turn) :
    Consistent (threadsStep s turn).1 (out ++ (threadsStep s turn).2) := by
  cases turn with
  | push update =>
      obtain ⟨ring, producer, consumer⟩ := s
      obtain ⟨hrange, hproducer, hconsumer, hfifo⟩ := h
      cases producer with
      | idle => exact ⟨hrange, rfl, hconsumer, by simpa [threadsStep] using hfifo⟩
      | _ => exact ⟨hrange, hproducer, hconsumer, by simpa [threadsStep] using hfifo⟩
  | producer partly => exact h.producer_step partly
  | pop =>
      obtain ⟨ring, producer, consumer⟩ := s
      obtain ⟨hrange, hproducer, hconsumer, hfifo⟩ := h
      cases consumer with
      | idle => exact ⟨hrange, hproducer, rfl, by simpa [threadsStep] using hfifo⟩
      | _ => exact ⟨hrange, hproducer, hconsumer, by simpa [threadsStep] using hfifo⟩
  | consumer torn => exact h.consumer_step torn

theorem consistent_run (turns : List Turn) :
    Consistent (Machine.run threadsStep .new turns).1 (Machine.run threadsStep .new turns).2 := by
  have hguarded : Machine.Guarded threadsStep (fun _ _ => True) .new turns :=
    Machine.guarded_of_forall (fun _ _ => trivial) _
  have hrun : Consistent _ ([] ++ _) := hguarded.trace_invariant (fun _ _ turn h _ => h.step turn) consistent_new
  exact hrun

/-- The threads never use one slot at the same time. -/
theorem Consistent.slots_apart {s : Threads} {out : List Returned} (h : Consistent s out) {i j : Nat}
    (hi : s.producer.slot = some i) (hj : s.consumer.slot = some j) : i ≠ j := by
  have htail : i = s.ring.tail := by
    have hproducer := h.producer
    cases hp : s.producer <;> rw [hp] at hi hproducer <;> cases hi
    · exact hproducer.1
    · exact hproducer.1
    · exact hproducer.1
  have hhead : j = s.ring.head ∧ s.ring.head ≠ s.ring.tail := by
    have hconsumer := h.consumer
    cases hc : s.consumer <;> rw [hc] at hj hconsumer <;> cases hj
    · exact hconsumer
    · exact ⟨hconsumer.1, hconsumer.2.1⟩
    · exact ⟨hconsumer.1, hconsumer.2.1⟩
  rw [htail, hhead.1]
  exact hhead.2.symm

/-- A push is refused when it finds no room. -/
theorem full_of_refused {s : Threads} {out : List Returned} (h : Consistent s out) {turn : Turn}
    {update : FastUpdate} (hrefused : Returned.refused update ∈ (threadsStep s turn).2) : ¬ s.ring.HasRoom := by
  obtain ⟨ring, producer, consumer⟩ := s
  have hproducer := h.producer
  cases turn with
  | push update' => cases producer <;> cases hrefused
  | producer partly =>
      cases producer with
      | loadedTail update' tail =>
          obtain rfl : tail = ring.tail := hproducer
          unfold threadsStep at hrefused
          simp only at hrefused
          split at hrefused
          next hfull => exact fun hroom => hroom hfull
          next => cases hrefused
      | idle => cases hrefused
      | writing => cases hrefused
      | halfWritten => cases hrefused
      | written => simp [threadsStep] at hrefused
  | pop => cases consumer <;> cases hrefused
  | consumer torn =>
      cases consumer with
      | loadedHead head =>
          unfold threadsStep at hrefused
          simp only at hrefused
          split at hrefused <;> simp at hrefused
      | idle => cases hrefused
      | reading => cases hrefused
      | halfRead => cases hrefused
      | read => simp [threadsStep] at hrefused

/-- A pop comes back empty when it finds nothing that waits. -/
theorem drained_of_empty {s : Threads} {out : List Returned} (h : Consistent s out) {turn : Turn}
    (hempty : Returned.empty ∈ (threadsStep s turn).2) : s.ring.Drained := by
  obtain ⟨ring, producer, consumer⟩ := s
  have hconsumer := h.consumer
  cases turn with
  | push update => cases producer <;> cases hempty
  | producer partly =>
      cases producer with
      | loadedTail update tail =>
          unfold threadsStep at hempty
          simp only at hempty
          split at hempty <;> simp at hempty
      | idle => cases hempty
      | writing => cases hempty
      | halfWritten => cases hempty
      | written => simp [threadsStep] at hempty
  | pop => cases consumer <;> cases hempty
  | consumer torn =>
      cases consumer with
      | loadedHead head =>
          obtain rfl : head = ring.head := hconsumer
          unfold threadsStep at hempty
          simp only at hempty
          split at hempty
          next hdrained => exact hdrained
          next => cases hempty
      | idle => cases hempty
      | reading => cases hempty
      | halfRead => cases hempty
      | read => simp [threadsStep] at hempty

/-- **The ring is a bounded queue**, in every state of every interleaving. What has been accepted is what was
    popped and then what waits in the ring, never more than 65535; a push is refused only when that many wait, a
    pop comes back empty only when none does; and the threads never use one slot at the same time. -/
theorem spsc_bounded_fifo (turns : List Turn) :
    acceptedOf (Machine.run threadsStep .new turns).2
      = poppedOf (Machine.run threadsStep .new turns).2 ++ (Machine.run threadsStep .new turns).1.ring.contents ∧
    (Machine.run threadsStep .new turns).1.ring.contents.length ≤ 65535 ∧
    (∀ turn update, Returned.refused update ∈ (threadsStep (Machine.run threadsStep .new turns).1 turn).2 →
      (acceptedOf (Machine.run threadsStep .new turns).2).length
        = (poppedOf (Machine.run threadsStep .new turns).2).length + 65535) ∧
    (∀ turn, Returned.empty ∈ (threadsStep (Machine.run threadsStep .new turns).1 turn).2 →
      acceptedOf (Machine.run threadsStep .new turns).2 = poppedOf (Machine.run threadsStep .new turns).2) ∧
    ∀ i j, (Machine.run threadsStep .new turns).1.producer.slot = some i →
      (Machine.run threadsStep .new turns).1.consumer.slot = some j → i ≠ j := by
  have h := consistent_run turns
  refine ⟨h.fifo, ?_, ?_, ?_, fun i j hi hj => h.slots_apart hi hj⟩
  · rw [length_contents]
    exact Nat.le_of_lt_succ (size_lt _)
  · intro turn update hrefused
    rw [h.fifo, List.length_append, length_contents, size_of_full h.range (full_of_refused h hrefused)]
    rfl
  · intro turn hempty
    rw [h.fifo, contents_of_drained (drained_of_empty h hempty), List.append_nil]

end RingBuffer
end Hft
end TradingPlatform
