import TradingPlatform.Library.Circular
import TradingPlatform.Library.Machine

/-!
# `Engine.CircularBuffer` — the overwriting ring of the engine

A fixed number of slots, a head, a tail and a size that move independently. A push to a full buffer overwrites the
oldest item. Calls of any kind, in any order, answer what a queue would that drops its oldest item when it gets
longer than the capacity (`replies_eq_queue`).

What panics is `none`: an index behind the last slot, and a remainder by 0.
-/

namespace TradingPlatform
namespace Engine

open Circular

variable {α : Type}

structure CircularBuffer (α : Type) where
  buffer   : List (Option α)
  capacity : Nat
  head     : Nat
  tail     : Nat
  size     : Nat

/-- The next index, back to 0 after the last one. -/
def nextIndex (index capacity : Nat) : Option Nat := if capacity = 0 then none else some ((index + 1) % capacity)

namespace CircularBuffer

def new (capacity : Nat) : CircularBuffer α where
  buffer   := List.replicate capacity none
  capacity := capacity
  head     := 0
  tail     := 0
  size     := 0

/-- Full, the head moves and the size stays. -/
def makeRoom (b : CircularBuffer α) : Option (CircularBuffer α) :=
  if b.size = b.capacity then do
    let head ← nextIndex b.head b.capacity
    return { b with head }
  else some { b with size := b.size + 1 }

def push (b : CircularBuffer α) (item : α) : Option (CircularBuffer α × Bool) := do
  let b ← b.makeRoom
  if b.tail < b.buffer.length then
    let tail ← nextIndex b.tail b.capacity
    return ({ b with buffer := b.buffer.set b.tail (some item), tail }, true)
  else none

def pop (b : CircularBuffer α) : Option (CircularBuffer α × Option α) :=
  if b.size = 0 then some (b, none)
  else do
    let item ← b.buffer[b.head]?
    let head ← nextIndex b.head b.capacity
    return ({ b with buffer := b.buffer.set b.head none, head, size := b.size - 1 }, item)

def len (b : CircularBuffer α) : Nat := b.size

def isEmpty (b : CircularBuffer α) : Bool := b.size == 0

def clear (b : CircularBuffer α) : CircularBuffer α :=
  { b with buffer := b.buffer.map fun _ => none, head := 0, tail := 0, size := 0 }

/-- The loop of `drain`, with the items it has so far; an empty buffer ends it. -/
def drainLoop : Nat → CircularBuffer α → List α → Option (CircularBuffer α × List α)
  | 0, b, items          => some (b, items)
  | rounds + 1, b, items => do
    let popped ← b.pop
    match popped.2 with
    | some item => drainLoop rounds popped.1 (items ++ [item])
    | none      => return (popped.1, items)

def drain (b : CircularBuffer α) (n : Nat) : Option (CircularBuffer α × List α) := drainLoop (min n b.size) b []

end CircularBuffer

/-! ## Calls -/

inductive RingCall (α : Type) where
  | push (item : α)
  | pop
  | len
  | isEmpty
  | clear
  | drain (n : Nat)

inductive RingReply (α : Type) where
  | pushed (stored : Bool)
  | popped (item : Option α)
  | length (n : Nat)
  | empty (isEmpty : Bool)
  | cleared
  | drained (items : List α)
deriving DecidableEq

def CircularBuffer.call (b : CircularBuffer α) : RingCall α → Option (CircularBuffer α × List (RingReply α))
  | .push item => (b.push item).map fun r => (r.1, [.pushed r.2])
  | .pop       => b.pop.map fun r => (r.1, [.popped r.2])
  | .len       => some (b, [.length b.len])
  | .isEmpty   => some (b, [.empty b.isEmpty])
  | .clear     => some (b.clear, [.cleared])
  | .drain n   => (b.drain n).map fun r => (r.1, [.drained r.2])

/-- What the calls return, unless one of them panics. -/
def CircularBuffer.replies (b : CircularBuffer α) (calls : List (RingCall α)) : Option (List (RingReply α)) :=
  (Machine.runM call b calls).map Prod.snd

/-! ## The queue -/

/-- A queue takes the item at its end, and drops its oldest one if it has become longer than the capacity. -/
def enqueueRecent (capacity : Nat) (queue : List α) (item : α) : List α :=
  if capacity < (queue ++ [item]).length then (queue ++ [item]).tail else queue ++ [item]

/-- The calls, answered by a queue, oldest item first. -/
def queueCall (capacity : Nat) (queue : List α) : RingCall α → List α × List (RingReply α)
  | .push item => (enqueueRecent capacity queue item, [.pushed true])
  | .pop       => (queue.tail, [.popped queue.head?])
  | .len       => (queue, [.length queue.length])
  | .isEmpty   => (queue, [.empty queue.isEmpty])
  | .clear     => ([], [.cleared])
  | .drain n   => (queue.drop n, [.drained (queue.take n)])

/-- The buffer of this capacity holds the queue, from its head up to its tail. -/
structure Stores (capacity : Nat) (b : CircularBuffer α) (queue : List α) : Prop where
  holds : Holds b.buffer b.head queue
  slots : b.buffer.length = capacity
  fixed : b.capacity = capacity
  size  : b.size = queue.length
  tail  : b.tail = (b.head + queue.length) % capacity

namespace Stores

variable {capacity : Nat} {b : CircularBuffer α} {queue rest : List α} {item : α}

theorem head_lt (h : Stores capacity b queue) : b.head < capacity := by
  have hstart := h.holds.start
  rwa [h.slots] at hstart

theorem capacity_pos (h : Stores capacity b queue) : 0 < capacity :=
  Nat.lt_of_le_of_lt (Nat.zero_le _) h.head_lt

theorem length_le (h : Stores capacity b queue) : queue.length ≤ capacity := by
  have hfits := h.holds.fits
  rwa [h.slots] at hfits

theorem tail_lt (h : Stores capacity b queue) : b.tail < b.buffer.length := by
  rw [h.slots, h.tail]
  exact Nat.mod_lt _ h.capacity_pos

/-- The remainder is never by 0. -/
theorem nextIndex_eq (h : Stores capacity b queue) (index : Nat) :
    nextIndex index b.capacity = some ((index + 1) % capacity) := by
  rw [h.fixed]
  exact if_neg (Nat.ne_of_gt h.capacity_pos)

theorem new (h : 1 ≤ capacity) : Stores capacity (CircularBuffer.new capacity) ([] : List α) where
  holds := Holds.empty h
  slots := List.length_replicate
  fixed := rfl
  size  := rfl
  tail  := (Nat.zero_mod capacity).symm

/-! ## One call -/

/-- A push to a full buffer overwrites the oldest item. -/
theorem push_full (h : Stores capacity b (item :: rest)) (hfull : rest.length + 1 = capacity) (new : α) :
    ∃ b', b.push new = some (b', true) ∧ Stores capacity b' (rest ++ [new]) := by
  have hsize : b.size = b.capacity := by
    rw [h.size, h.fixed]
    exact hfull
  have htail : b.tail = b.head := by
    rw [h.tail, List.length_cons, hfull]
    exact wrap_round h.head_lt
  have hroom : b.makeRoom = some { b with head := (b.head + 1) % capacity } := by
    rw [CircularBuffer.makeRoom, if_pos hsize, h.nextIndex_eq]
    rfl
  refine ⟨{ b with buffer := b.buffer.set b.tail (some new)
                   head   := (b.head + 1) % capacity
                   tail   := (b.tail + 1) % capacity }, ?_, ?_⟩
  · rw [CircularBuffer.push, hroom, Option.bind_eq_bind, Option.bind_some]
    dsimp only
    rw [if_pos h.tail_lt, h.nextIndex_eq]
    rfl
  · have hlength : (rest ++ [new]).length = capacity := by
      rw [List.length_append, List.length_singleton]
      exact hfull
    refine ⟨?_, ?_, h.fixed, ?_, ?_⟩
    · have hput := h.holds.overwrite (hfull.trans h.slots.symm) new
      rw [h.slots, ← htail] at hput
      rwa [htail] at hput ⊢
    · exact List.length_set.trans h.slots
    · exact h.size.trans (hfull.trans hlength.symm)
    · show (b.tail + 1) % capacity = ((b.head + 1) % capacity + (rest ++ [new]).length) % capacity
      rw [hlength, htail, wrap_round (Nat.mod_lt _ h.capacity_pos)]

theorem push_room (h : Stores capacity b queue) (hroom : queue.length < capacity) (new : α) :
    ∃ b', b.push new = some (b', true) ∧ Stores capacity b' (queue ++ [new]) := by
  have hsize : b.size ≠ b.capacity := by
    rw [h.size, h.fixed]
    exact Nat.ne_of_lt hroom
  have hmake : b.makeRoom = some { b with size := b.size + 1 } := if_neg hsize
  refine ⟨{ b with buffer := b.buffer.set b.tail (some new)
                   tail   := (b.tail + 1) % capacity
                   size   := b.size + 1 }, ?_, ?_⟩
  · rw [CircularBuffer.push, hmake, Option.bind_eq_bind, Option.bind_some]
    dsimp only
    rw [if_pos h.tail_lt, h.nextIndex_eq]
    rfl
  · have hlength : (queue ++ [new]).length = queue.length + 1 := by
      rw [List.length_append, List.length_singleton]
    refine ⟨?_, ?_, h.fixed, ?_, ?_⟩
    · have hput := h.holds.append (Nat.lt_of_lt_of_eq hroom h.slots.symm) new
      rwa [h.slots, ← h.tail] at hput
    · exact List.length_set.trans h.slots
    · rw [hlength, ← h.size]
    · show (b.tail + 1) % capacity = (b.head + (queue ++ [new]).length) % capacity
      rw [hlength, h.tail, Nat.mod_add_mod, Nat.add_assoc]

/-- **A push** is the queue's. -/
theorem push (h : Stores capacity b queue) (new : α) :
    ∃ b', b.push new = some (b', true) ∧ Stores capacity b' (enqueueRecent capacity queue new) := by
  unfold enqueueRecent
  rw [List.length_append, List.length_singleton]
  rcases Nat.lt_or_ge queue.length capacity with hroom | hfull
  · rw [if_neg (Nat.not_lt.mpr hroom)]
    exact h.push_room hroom new
  · rw [if_pos (Nat.lt_succ_of_le hfull)]
    cases queue with
    | nil => exact absurd h.capacity_pos (Nat.not_lt.mpr hfull)
    | cons item rest => exact h.push_full (Nat.le_antisymm h.length_le hfull) new

/-- **A pop** takes the oldest item of the queue. -/
theorem pop (h : Stores capacity b queue) :
    ∃ b', b.pop = some (b', queue.head?) ∧ Stores capacity b' queue.tail := by
  cases queue with
  | nil => exact ⟨b, if_pos h.size, h⟩
  | cons item rest =>
      have hsize : b.size = rest.length + 1 := h.size
      refine ⟨{ b with buffer := b.buffer.set b.head none
                       head   := (b.head + 1) % capacity
                       size   := b.size - 1 }, ?_, ?_⟩
      · rw [CircularBuffer.pop, if_neg (by omega), h.holds.getElem?_head, h.nextIndex_eq]
        rfl
      · have htaken := h.holds.take
        rw [h.slots] at htaken
        refine ⟨htaken, List.length_set.trans h.slots, h.fixed, ?_, ?_⟩
        · show b.size - 1 = rest.length
          omega
        · show b.tail = ((b.head + 1) % capacity + rest.length) % capacity
          rw [wrap_next]
          exact h.tail

theorem clear (h : Stores capacity b queue) : Stores capacity b.clear [] := by
  have hslots : b.clear.buffer = List.replicate capacity none := by
    show b.buffer.map (fun _ => none) = _
    rw [List.map_const', h.slots]
  refine ⟨?_, ?_, h.fixed, rfl, (Nat.zero_mod capacity).symm⟩
  · rw [hslots]
    exact Holds.empty h.capacity_pos
  · rw [hslots]
    exact List.length_replicate

/-- The loop of `drain` pops as many items as it is told, while there are some. -/
theorem drainLoop (h : Stores capacity b queue) {rounds : Nat} (hrounds : rounds ≤ queue.length) (items : List α) :
    ∃ b', CircularBuffer.drainLoop rounds b items = some (b', items ++ queue.take rounds) ∧
      Stores capacity b' (queue.drop rounds) := by
  induction rounds generalizing b queue items with
  | zero =>
      refine ⟨b, ?_, h⟩
      rw [List.take_zero, List.append_nil]
      rfl
  | succ rounds ih =>
      cases queue with
      | nil => exact absurd hrounds (Nat.not_succ_le_zero rounds)
      | cons item rest =>
          obtain ⟨b₁, hpop, hrest⟩ := h.pop
          obtain ⟨b₂, hloop, hlast⟩ := ih hrest (Nat.le_of_succ_le_succ hrounds) (items ++ [item])
          refine ⟨b₂, ?_, hlast⟩
          rw [CircularBuffer.drainLoop, hpop]
          show CircularBuffer.drainLoop rounds b₁ (items ++ [item]) = _
          rw [hloop, List.append_assoc]
          rfl

/-- **A drain** takes the oldest items of the queue. -/
theorem drain (h : Stores capacity b queue) (n : Nat) :
    ∃ b', b.drain n = some (b', queue.take n) ∧ Stores capacity b' (queue.drop n) := by
  have htake : queue.take n = queue.take (min n queue.length) := by
    rw [List.take_eq_take_iff, Nat.min_assoc, Nat.min_self]
  have hdrop : queue.drop n = queue.drop (min n queue.length) := by
    rw [List.drop_eq_drop_iff, Nat.min_assoc, Nat.min_self]
  rw [CircularBuffer.drain, h.size, htake, hdrop]
  exact h.drainLoop (Nat.min_le_right ..) []

/-- **Every call** answers what the queue does, and keeps holding it. -/
theorem call (h : Stores capacity b queue) (c : RingCall α) :
    ∃ b', b.call c = some (b', (queueCall capacity queue c).2) ∧
      Stores capacity b' (queueCall capacity queue c).1 := by
  cases c with
  | push item =>
      obtain ⟨b', hpush, hnext⟩ := h.push item
      exact ⟨b', by rw [CircularBuffer.call, hpush]; rfl, hnext⟩
  | pop =>
      obtain ⟨b', hpop, hnext⟩ := h.pop
      exact ⟨b', by rw [CircularBuffer.call, hpop]; rfl, hnext⟩
  | len =>
      refine ⟨b, ?_, h⟩
      rw [CircularBuffer.call, CircularBuffer.len, h.size]
      rfl
  | isEmpty =>
      refine ⟨b, ?_, h⟩
      rw [CircularBuffer.call, CircularBuffer.isEmpty, h.size]
      cases queue <;> rfl
  | clear => exact ⟨b.clear, rfl, h.clear⟩
  | drain n =>
      obtain ⟨b', hdrain, hnext⟩ := h.drain n
      exact ⟨b', by rw [CircularBuffer.call, hdrain]; rfl, hnext⟩

/-- From a buffer that holds a queue, a run of calls goes as on the queue. -/
theorem replies (h : Stores capacity b queue) (calls : List (RingCall α)) :
    b.replies calls = some (Machine.run (queueCall capacity) queue calls).2 := by
  obtain ⟨b', hrun, -⟩ := Machine.runM_refines (fun _ _ c hstores => Stores.call hstores c) h calls
  rw [CircularBuffer.replies, hrun]
  rfl

end Stores

/-! ## Runs -/

/-- **The buffer is a queue of the most recent items.** Whatever is called, in any order, nothing panics, and what
    the calls return is what they return on a queue that drops its oldest item when it gets longer than the
    capacity. -/
theorem replies_eq_queue {capacity : Nat} (h : 1 ≤ capacity) (calls : List (RingCall α)) :
    (CircularBuffer.new capacity).replies calls = some (Machine.run (queueCall capacity) [] calls).2 :=
  (Stores.new h).replies calls

/-- Three slots and four pushes: the first item is gone. -/
theorem replies_eq_queue_three :
    (CircularBuffer.new 3).replies [.push 1, .push 2, .push 3, .push 4, .len, .pop, .drain 5, .pop, .isEmpty] =
      some [.pushed true, .pushed true, .pushed true, .pushed true, .length 3, .popped (some 2), .drained [3, 4],
        .popped none, .empty true] :=
  replies_eq_queue (by decide) _

/-! ## What is kept -/

section Kept

variable {capacity : Nat}

/-- The last items, as many as fit. -/
def mostRecent (capacity : Nat) (items : List α) : List α := items.drop (items.length - capacity)

theorem enqueueRecent_eq {queue : List α} (h : queue.length ≤ capacity) (item : α) :
    enqueueRecent capacity queue item = mostRecent capacity (queue ++ [item]) := by
  unfold enqueueRecent mostRecent
  rw [List.length_append, List.length_singleton]
  split
  next hover =>
    have hone : queue.length + 1 - capacity = 1 := by omega
    rw [hone, List.drop_one]
  next hfits =>
    have hnone : queue.length + 1 - capacity = 0 := by omega
    rw [hnone, List.drop_zero]

theorem length_mostRecent_le (capacity : Nat) (items : List α) : (mostRecent capacity items).length ≤ capacity := by
  unfold mostRecent
  rw [List.length_drop]
  omega

/-- What was dropped early makes no difference. -/
theorem mostRecent_mostRecent_append (capacity : Nat) (items later : List α) :
    mostRecent capacity (mostRecent capacity items ++ later) = mostRecent capacity (items ++ later) := by
  unfold mostRecent
  rw [← List.drop_append_of_le_length (Nat.sub_le _ _), List.drop_drop, List.length_drop, List.length_append]
  congr 1
  omega

theorem run_pushes {queue : List α} (h : queue.length ≤ capacity) (items : List α) :
    Machine.run (queueCall capacity) queue (items.map RingCall.push) =
      (mostRecent capacity (queue ++ items), List.replicate items.length (.pushed true)) := by
  induction items generalizing queue with
  | nil =>
      have hall : mostRecent capacity queue = queue := by
        unfold mostRecent
        rw [Nat.sub_eq_zero_of_le h, List.drop_zero]
      rw [List.append_nil, hall]
      rfl
  | cons item items ih =>
      have hnext : (queueCall capacity queue (.push item)).1 = mostRecent capacity (queue ++ [item]) :=
        enqueueRecent_eq h item
      rw [List.map_cons, Machine.run_cons, hnext, ih (length_mostRecent_le ..), mostRecent_mostRecent_append,
        List.append_assoc]
      rfl

/-- A drain after a run of pushes returns the last of them, as many as fit. -/
theorem replies_pushes_drain (h : 1 ≤ capacity) (items : List α) (n : Nat) :
    (CircularBuffer.new capacity).replies (items.map RingCall.push ++ [RingCall.drain n]) =
      some (List.replicate items.length (.pushed true) ++ [.drained ((mostRecent capacity items).take n)]) := by
  have hpushes := @run_pushes α capacity [] (Nat.zero_le capacity) items
  rw [List.nil_append] at hpushes
  rw [(Stores.new h).replies, Machine.run_append_outputs, hpushes]
  rfl

end Kept

end Engine
end TradingPlatform
