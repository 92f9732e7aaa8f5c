import TradingPlatform.Library.Machine
import Mathlib.Logic.Function.Basic

/-!
# `Library.Mpsc` — a bounded channel with many producers and one consumer

A producer waits with its item until there is room for it. The consumer takes out one item, works on it, and has
finished it before it takes the next. All of them run interleaved, in any order.

What a producer sends is finished, or in flight, in the order it was sent (`step_flight`), and everything in flight can
still be finished (`exists_drain`).
-/

namespace Mpsc

open Machine

variable {ι α : Type*}

structure State (ι α : Type*) where
  /-- in the hands of a producer that waits for room -/
  sending : ι → Option α
  queue   : List (ι × α)
  /-- in the hands of the consumer -/
  taken   : Option (ι × α)

def State.empty : State ι α := { sending := fun _ => none, queue := [], taken := none }

inductive Action (ι α : Type*) where
  | send (i : ι) (item : α)
  | push (i : ι)
  | take
  | finish

/-- The item goes one further, and is not finished yet. -/
def Action.Shifts : Action ι α → Prop
  | .push _ | .take    => True
  | .send .. | .finish => False

/-- Any step but sending. -/
def Action.Drains : Action ι α → Prop
  | .send .. => False
  | _        => True

theorem Action.Shifts.drains {action : Action ι α} (h : action.Shifts) : action.Drains := by
  cases action with
  | send i item => exact h
  | _ => trivial

/-- Whatever is in flight is of this kind. -/
structure Holds (kind : ι → α → Prop) (s : State ι α) : Prop where
  sending : ∀ i item, s.sending i = some item → kind i item
  queue   : ∀ entry ∈ s.queue, kind entry.1 entry.2
  taken   : ∀ entry, s.taken = some entry → kind entry.1 entry.2

theorem Holds.empty {kind : ι → α → Prop} : Holds kind (State.empty : State ι α) := ⟨nofun, nofun, nofun⟩

section Step

variable [DecidableEq ι] (capacity : Nat)

/-- The outputs are the items that are finished. -/
def step (s : State ι α) : Action ι α → State ι α × List (ι × α)
  | .send i item =>
    match s.sending i with
    | none   => ({ s with sending := Function.update s.sending i (some item) }, [])
    | some _ => (s, [])
  | .push i =>
    match s.sending i with
    | none      => (s, [])
    | some item =>
      if s.queue.length < capacity then
        ({ s with sending := Function.update s.sending i none, queue := s.queue ++ [(i, item)] }, [])
      else (s, [])
  | .take =>
    match s.taken, s.queue with
    | none, entry :: rest => ({ s with queue := rest, taken := some entry }, [])
    | _, _                => (s, [])
  | .finish =>
    match s.taken with
    | none       => (s, [])
    | some entry => ({ s with taken := none }, [entry])

/-- What one step can do. -/
inductive Moved (s : State ι α) : Action ι α → State ι α → List (ι × α) → Prop where
  | sent (i : ι) (item : α) (hfree : s.sending i = none) :
      Moved s (.send i item) { s with sending := Function.update s.sending i (some item) } []
  | pushed (i : ι) (item : α) (hsending : s.sending i = some item) (hroom : s.queue.length < capacity) :
      Moved s (.push i) { s with sending := Function.update s.sending i none, queue := s.queue ++ [(i, item)] } []
  | took (entry : ι × α) (rest : List (ι × α)) (htaken : s.taken = none) (hqueue : s.queue = entry :: rest) :
      Moved s .take { s with queue := rest, taken := some entry } []
  | finished (entry : ι × α) (htaken : s.taken = some entry) : Moved s .finish { s with taken := none } [entry]
  /-- There is nothing to take, no room for it, or the producer still waits. -/
  | waits (action : Action ι α) (hsends : ∀ i item, action = .send i item → s.sending i ≠ none) : Moved s action s []

/-- **Every step is one of these.** -/
theorem moved_step (s : State ι α) (action : Action ι α) :
    Moved capacity s action (step capacity s action).1 (step capacity s action).2 := by
  cases action with
  | send i item =>
      unfold step
      dsimp only
      split
      next hfree => exact .sent i item hfree
      next _ hwaits =>
        refine .waits _ ?_
        rintro _ _ ⟨⟩
        rw [hwaits]
        exact nofun
  | push i =>
      unfold step
      dsimp only
      split
      · exact .waits _ nofun
      next item hsending =>
        split
        next hroom => exact .pushed i item hsending hroom
        next => exact .waits _ nofun
  | take =>
      unfold step
      dsimp only
      split
      next entry rest htaken hqueue => exact .took entry rest htaken hqueue
      next => exact .waits _ nofun
  | finish =>
      unfold step
      dsimp only
      split
      · exact .waits _ nofun
      next entry htaken => exact .finished entry htaken

/-- The consumer keeps what it has until it has finished it. -/
theorem step_shifts {s : State ι α} {action : Action ι α} (h : action.Shifts) :
    (step capacity s action).2 = [] ∧ (s.taken ≠ none → (step capacity s action).1.taken = s.taken) := by
  have hmoved := moved_step capacity s action
  generalize (step capacity s action).1 = s' at hmoved
  generalize (step capacity s action).2 = out at hmoved
  cases hmoved with
  | sent => exact absurd h id
  | pushed => exact ⟨rfl, fun _ => rfl⟩
  | took entry rest htaken _ => exact ⟨rfl, absurd htaken⟩
  | finished => exact absurd h id
  | waits => exact ⟨rfl, fun _ => rfl⟩

/-- The queue is never longer than it may be. -/
theorem length_step {s : State ι α} (h : s.queue.length ≤ capacity) (action : Action ι α) :
    (step capacity s action).1.queue.length ≤ capacity := by
  have hmoved := moved_step capacity s action
  generalize (step capacity s action).1 = s' at hmoved
  generalize (step capacity s action).2 = out at hmoved
  cases hmoved with
  | pushed i item _ hroom =>
      rw [List.length_append, List.length_singleton]
      exact hroom
  | took entry rest _ hqueue =>
      rw [hqueue, List.length_cons] at h
      exact Nat.le_of_succ_le h
  | _ => exact h

end Step

/-! ## In flight -/

section Flight

variable [DecidableEq ι]

/-- The items of a producer among these. -/
def itemsOf (i : ι) (entries : List (ι × α)) : List α := (entries.filter fun entry => entry.1 = i).map Prod.snd

/-- What a producer has on its way, the oldest first. -/
def flight (s : State ι α) (i : ι) : List α :=
  itemsOf i s.taken.toList ++ itemsOf i s.queue ++ (s.sending i).toList

theorem itemsOf_append (i : ι) (entries later : List (ι × α)) :
    itemsOf i (entries ++ later) = itemsOf i entries ++ itemsOf i later := by
  unfold itemsOf
  rw [List.filter_append, List.map_append]

theorem itemsOf_cons (i : ι) (entry : ι × α) (entries : List (ι × α)) :
    itemsOf i (entry :: entries) = itemsOf i [entry] ++ itemsOf i entries := itemsOf_append i [entry] entries

theorem itemsOf_self (i : ι) (item : α) : itemsOf i [(i, item)] = [item] := by simp [itemsOf]

theorem itemsOf_other {i j : ι} (h : j ≠ i) (item : α) : itemsOf i [(j, item)] = [] := by simp [itemsOf, h]

/-- What a step adds. -/
def Action.sent (s : State ι α) (i : ι) : Action ι α → List α
  | .send j item => if j = i ∧ (s.sending j).isNone then [item] else []
  | _            => []

variable {capacity : Nat}

variable (capacity) in
/-- **One step.** What is finished of a producer, and what it then has in flight, is what it had in flight and what it
    sends. -/
theorem step_flight (s : State ι α) (action : Action ι α) (i : ι) :
    itemsOf i (step capacity s action).2 ++ flight (step capacity s action).1 i = flight s i ++ action.sent s i := by
  have hmoved := moved_step capacity s action
  generalize (step capacity s action).1 = s' at hmoved
  generalize (step capacity s action).2 = out at hmoved
  unfold flight
  cases hmoved with
  | sent j item hfree =>
      by_cases h : j = i
      · subst h
        simp [Action.sent, itemsOf, hfree]
      · simp [Action.sent, itemsOf, h, Function.update_of_ne (Ne.symm h)]
  | pushed j item hsending _ =>
      by_cases h : j = i
      · subst h
        simp [Action.sent, itemsOf, hsending]
      · simp [Action.sent, itemsOf, h, Function.update_of_ne (Ne.symm h)]
  | took entry rest htaken hqueue =>
      rw [hqueue, htaken, itemsOf_cons i entry rest]
      simp [Action.sent, itemsOf]
  | finished entry htaken =>
      rw [htaken]
      simp [Action.sent, itemsOf]
  | waits _ hsends =>
      have hnothing : action.sent s i = [] := by
        cases action with
        | send j item =>
            refine if_neg fun h => hsends j item rfl ?_
            exact Option.isNone_iff_eq_none.mp h.2
        | _ => rfl
      rw [hnothing, List.append_nil]
      rfl

/-! ## What all items have in common -/

variable {kind : ι → α → Prop}

theorem Holds.update {s : State ι α} (h : Holds kind s) {i : ι} {held : Option α}
    (hheld : ∀ item, held = some item → kind i item) (j : ι) (item : α)
    (hitem : Function.update s.sending i held j = some item) : kind j item := by
  by_cases hj : j = i
  · subst hj
    rw [Function.update_self] at hitem
    exact hheld item hitem
  · rw [Function.update_of_ne hj] at hitem
    exact h.sending j item hitem

variable (capacity) in
theorem Holds.step {s : State ι α} (h : Holds kind s) {action : Action ι α}
    (haction : ∀ i item, action = .send i item → kind i item) : Holds kind (step capacity s action).1 := by
  have hmoved := moved_step capacity s action
  generalize (Mpsc.step capacity s action).1 = s' at hmoved
  generalize (Mpsc.step capacity s action).2 = out at hmoved
  cases hmoved with
  | sent i item _ =>
      refine ⟨h.update ?_, h.queue, h.taken⟩
      rintro _ ⟨⟩
      exact haction i item rfl
  | pushed i item hsending _ =>
      refine ⟨h.update nofun, ?_, h.taken⟩
      intro entry hentry
      rcases List.mem_append.mp hentry with hentry | hentry
      · exact h.queue entry hentry
      · obtain rfl := List.mem_singleton.mp hentry
        exact h.sending i item hsending
  | took entry rest _ hqueue =>
      have hall := h.queue
      rw [hqueue] at hall
      refine ⟨h.sending, fun other hother => hall other (List.mem_cons_of_mem _ hother), ?_⟩
      rintro _ ⟨⟩
      exact hall entry List.mem_cons_self
  | finished entry _ => exact ⟨h.sending, h.queue, nofun⟩
  | waits _ _ => exact h

variable (capacity) in
theorem Holds.drains {s : State ι α} (h : Holds kind s) {action : Action ι α} (hdrains : action.Drains) :
    Holds kind (Mpsc.step capacity s action).1 := by
  refine h.step capacity ?_
  rintro i item rfl
  exact absurd hdrains id

/-! ## Draining -/

/-- A state that draining leads to. -/
def Leads (capacity : Nat) (s s' : State ι α) : Prop :=
  ∃ actions : List (Action ι α), (∀ action ∈ actions, action.Drains) ∧ (run (step capacity) s actions).1 = s'

theorem Leads.refl (s : State ι α) : Leads capacity s s := ⟨[], nofun, rfl⟩

theorem Leads.trans {s s' s'' : State ι α} (h : Leads capacity s s') (h' : Leads capacity s' s'') :
    Leads capacity s s'' := by
  obtain ⟨actions, hactions, rfl⟩ := h
  obtain ⟨later, hlater, rfl⟩ := h'
  refine ⟨actions ++ later, fun action hmem => ?_, run_append_state ..⟩
  rcases List.mem_append.mp hmem with hmem | hmem
  · exact hactions action hmem
  · exact hlater action hmem

theorem Leads.one {s s' : State ι α} (action : Action ι α) (hdrains : action.Drains)
    (h : (step capacity s action).1 = s') : Leads capacity s s' := ⟨[action], by simpa using hdrains, h⟩

/-- The consumer finishes what it has taken, -/
theorem leads_finish (s : State ι α) : Leads capacity s { s with taken := none } := by
  cases htaken : s.taken with
  | none =>
      have hsame : ({ s with taken := none } : State ι α) = s := by rw [← htaken]
      rw [hsame]
      exact .refl s
  | some entry => exact .one .finish trivial (by simp [step, htaken])

/-- and empties the queue. -/
theorem leads_queue (s : State ι α) : Leads capacity s { s with queue := [], taken := none } := by
  refine (leads_finish s).trans ?_
  obtain ⟨sending, queue, -⟩ := s
  induction queue with
  | nil => exact .refl _
  | cons entry rest ih =>
      exact (Leads.one .take trivial rfl).trans ((Leads.one .finish trivial rfl).trans ih)

/-- A producer that waits gets rid of its item. -/
theorem leads_sending (hcapacity : 0 < capacity) (s : State ι α) (i : ι) :
    Leads capacity s { sending := Function.update s.sending i none, queue := [], taken := none } := by
  refine (leads_queue s).trans ?_
  cases hsending : s.sending i with
  | none =>
      rw [Function.update_eq_self_iff.mpr hsending.symm]
      exact .refl _
  | some item =>
      have hpush : (step capacity { s with queue := [], taken := none } (.push i)).1
          = { sending := Function.update s.sending i none, queue := [(i, item)], taken := none } := by
        simp [step, hsending, hcapacity]
      exact (Leads.one (.push i) trivial hpush).trans (leads_queue _)

/-- **Whatever is in flight can be finished**, of all producers that have anything. -/
theorem exists_drain (hcapacity : 0 < capacity) (s : State ι α) {producers : List ι}
    (hall : ∀ i, i ∉ producers → s.sending i = none) : Leads capacity s .empty := by
  induction producers generalizing s with
  | nil =>
      have hfree : s.sending = fun _ => none := funext fun i => hall i List.not_mem_nil
      have hleads : Leads capacity s { s with queue := [], taken := none } := leads_queue s
      rw [hfree] at hleads
      exact hleads
  | cons i producers ih =>
      refine (leads_sending hcapacity s i).trans (ih _ fun j hj => ?_)
      by_cases heq : j = i
      · rw [heq]
        exact Function.update_self ..
      · exact (Function.update_of_ne heq ..).trans (hall j (by simp [heq, hj]))

theorem flight_empty (i : ι) : flight (State.empty : State ι α) i = [] := rfl

end Flight

end Mpsc
