import TradingPlatform.Builder.Turn
import Mathlib.Logic.Function.Basic

/-!
# `Manager.Manager` — the order book manager and its callers

`OrderBookManager` keeps a handle for each key in a map behind a lock. Any number of calls run at the same time;
each is cut at its awaits, and a run interleaves the pieces:

- the check under the read lock, which goes on to create and spawn a builder when there is none;
- the insertion of the handle under the write lock;
- the send.

The builders are the loops of `Builder.Builder`, each with its channel. `Move` lists what one action can do.
-/

namespace TradingPlatform
namespace Manager

open Market

/-! ## Data -/

/-- `mpsc::channel(1000)` -/
def channelCapacity : Nat := 1000

/-- `(exchange, symbol)` -/
abbrev Key := Exchange × String

def keyOf (update : OrderBookUpdate) : Key := (update.exchange, update.symbol)

inductive Request where
  | getOrCreateBuilder (exchange : Exchange) (symbol : String)
  | sendUpdate (update : OrderBookUpdate)
  | trySendUpdate (update : OrderBookUpdate)
deriving DecidableEq

def Request.key : Request → Key
  | .getOrCreateBuilder exchange symbol => (exchange, symbol)
  | .sendUpdate update                  => keyOf update
  | .trySendUpdate update               => keyOf update

def Request.update? : Request → Option OrderBookUpdate
  | .getOrCreateBuilder .. => none
  | .sendUpdate update     => some update
  | .trySendUpdate update  => some update

/-- How far a call has come. Builders are numbered as they are spawned; the number stands for a sender. -/
inductive Phase where
  /-- Waits for the read lock. -/
  | called
  /-- Has spawned this builder and waits for the write lock. -/
  | created (builder : Nat)
  /-- Has its sender. -/
  | ready (builder : Nat)
  | done
deriving DecidableEq

def Phase.builder? : Phase → Option Nat
  | .created b => some b
  | .ready b   => some b
  | _          => none

def Phase.ready? : Phase → Option Nat
  | .ready b => some b
  | _        => none

def Phase.isCreated : Phase → Bool
  | .created _ => true
  | _          => false

structure Call where
  request : Request
  phase   : Phase
deriving DecidableEq

/-- A builder task and the key it was made for. -/
structure Spawned where
  key  : Key
  loop : Builder.Loop

/-- The manager with its calls. The map holds the number of a builder where the code holds a handle. -/
structure System where
  builders : Key → Option Nat
  spawned  : List Spawned
  calls    : List Call

/-- `OrderBookManager::new` -/
def System.new : System where
  builders := fun _ => none
  spawned  := []
  calls    := []

/-- A piece of a call, or something a builder's task does. -/
inductive Step where
  | check (call : Nat)
  | store (call : Nat)
  | send (call : Nat)
  | iterate (builder : Nat) (expired : Bool)
  /-- The last sender has been dropped. -/
  | close (builder : Nat)

inductive Action where
  | call (request : Request)
  | step (step : Step)

inductive Effect where
  | sent (call builder : Nat) (update : OrderBookUpdate)
  /-- "Failed to send update" -/
  | failed (call : Nat) (update : OrderBookUpdate)
  | builder (builder : Nat) (effect : Builder.Effect)
deriving DecidableEq

namespace System

/-- What the calls were asked for, in the order they were made. -/
def requests (s : System) : List Request := s.calls.map Call.request

/-- The keys of the builders, in the order they were spawned. -/
def keys (s : System) : List Key := s.spawned.map Spawned.key

def setCall (s : System) (c : Nat) (request : Request) (phase : Phase) : System :=
  { s with calls := s.calls.set c { request, phase } }

/-- "Create new builder" and spawn its task. -/
def spawn (s : System) (key : Key) : System :=
  { s with spawned := s.spawned ++ [{ key, loop := .start key.2 key.1 }] }

/-! ## The pieces of a call -/

/-- "Check if builder exists", and if none does, create one. -/
def check (s : System) (c : Nat) (request : Request) : System :=
  match s.builders request.key with
  | some b => s.setCall c request (.ready b)
  | none   => (s.spawn request.key).setCall c request (.created s.spawned.length)

/-- "Store handle" -/
def store (s : System) (c : Nat) (request : Request) (b : Nat) : System :=
  { s.setCall c request (.ready b) with builders := Function.update s.builders request.key (some b) }

/-- The task of a builder takes in an event. -/
def drive (s : System) (b : Nat) (e : Builder.Event) : System × List Effect :=
  match s.spawned[b]? with
  | some task =>
      ({ s with spawned := s.spawned.set b { task with loop := (Builder.loopStep task.loop e).1 } },
        (Builder.loopStep task.loop e).2.map (.builder b))
  | none => (s, [])

/-- Whether the receiver is still there. -/
def alive (s : System) (b : Nat) : Bool := s.spawned[b]?.any fun task => task.loop.running && !task.loop.closed

def hasRoom (s : System) (b : Nat) : Bool :=
  s.spawned[b]?.any fun task => task.loop.channel.length < channelCapacity

/-- The update goes into the channel and the call is done. -/
def push (s : System) (c : Nat) (request : Request) (b : Nat) (update : OrderBookUpdate) : System × List Effect :=
  ((s.drive b (.send update)).1.setCall c request .done, [.sent c b update])

/-- What a call does with its sender. A caller that asked for the sender only is done when it drops it. -/
def send (s : System) (c : Nat) (request : Request) (b : Nat) : System × List Effect :=
  match request with
  | .getOrCreateBuilder .. => (s.setCall c request .done, [])
  | .sendUpdate update     =>
      if !s.alive b then (s.setCall c request .done, [.failed c update])
      else if s.hasRoom b then s.push c request b update
      -- `send` waits for room
      else (s, [])
  | .trySendUpdate update  =>
      if s.alive b && s.hasRoom b then s.push c request b update
      else (s.setCall c request .done, [.failed c update])

/-- Whether some sender of the builder is left, in the map or with a call. -/
def held (s : System) (b : Nat) : Bool :=
  s.keys[b]?.any (fun key => s.builders key = some b) || s.calls.any fun call => call.phase.builder? = some b

/-! ## The system -/

/-- One step; a step that is not due changes nothing. -/
def advance (s : System) : Step → System × List Effect
  | .check c =>
      match s.calls[c]? with
      | some ⟨request, .called⟩ => (s.check c request, [])
      | _                       => (s, [])
  | .store c =>
      match s.calls[c]? with
      | some ⟨request, .created b⟩ => (s.store c request b, [])
      | _                          => (s, [])
  | .send c =>
      match s.calls[c]? with
      | some ⟨request, .ready b⟩ => s.send c request b
      | _                        => (s, [])
  | .iterate b expired => s.drive b (.iterate expired)
  | .close b => if s.held b then (s, []) else s.drive b .close

def step (s : System) : Action → System × List Effect
  | .call request => ({ s with calls := s.calls ++ [⟨request, .called⟩] }, [])
  | .step st      => s.advance st

end System

/-- One action. -/
inductive Move (s : System) : Action → System → List Effect → Prop where
  | called (request : Request) :
      Move s (.call request) { s with calls := s.calls ++ [⟨request, .called⟩] } []
  /-- A builder for the key exists. -/
  | found (c : Nat) (request : Request) (b : Nat) (hcall : s.calls[c]? = some ⟨request, .called⟩)
      (hfound : s.builders request.key = some b) :
      Move s (.step (.check c)) (s.setCall c request (.ready b)) []
  /-- None exists: a builder is spawned. -/
  | created (c : Nat) (request : Request) (hcall : s.calls[c]? = some ⟨request, .called⟩)
      (hnone : s.builders request.key = none) :
      Move s (.step (.check c)) ((s.spawn request.key).setCall c request (.created s.spawned.length)) []
  | stored (c : Nat) (request : Request) (b : Nat) (hcall : s.calls[c]? = some ⟨request, .created b⟩) :
      Move s (.step (.store c)) (s.store c request b) []
  | sent (c : Nat) (request : Request) (b : Nat) (update : OrderBookUpdate) (task : Spawned)
      (hcall : s.calls[c]? = some ⟨request, .ready b⟩) (hupdate : request.update? = some update)
      (htask : s.spawned[b]? = some task) :
      Move s (.step (.send c))
        ({ s with spawned := s.spawned.set b { task with
            loop := { task.loop with channel := task.loop.channel ++ [update] } } }.setCall c request .done)
        [.sent c b update]
  /-- The receiver is gone, or the channel is full and the call does not wait. -/
  | failed (c : Nat) (request : Request) (b : Nat) (update : OrderBookUpdate)
      (hcall : s.calls[c]? = some ⟨request, .ready b⟩) (hupdate : request.update? = some update)
      (hrefused : (s.alive b && s.hasRoom b) = false) :
      Move s (.step (.send c)) (s.setCall c request .done) [.failed c update]
  | returned (c : Nat) (request : Request) (b : Nat) (hcall : s.calls[c]? = some ⟨request, .ready b⟩)
      (hnone : request.update? = none) :
      Move s (.step (.send c)) (s.setCall c request .done) []
  | iterated (b : Nat) (expired : Bool) (task : Spawned) (htask : s.spawned[b]? = some task) :
      Move s (.step (.iterate b expired))
        { s with spawned := s.spawned.set b { task with loop := (Builder.loopStep task.loop (.iterate expired)).1 } }
        ((Builder.loopStep task.loop (.iterate expired)).2.map (.builder b))
  | closed (b : Nat) (task : Spawned) (htask : s.spawned[b]? = some task) (hheld : s.held b = false) :
      Move s (.step (.close b))
        { s with spawned := s.spawned.set b { task with loop := { task.loop with closed := true } } } []
  /-- Nothing of the sort is due, or the call waits for room. -/
  | idle (a : Action) : Move s a s []

theorem drive_some {s : System} {b : Nat} {task : Spawned} (h : s.spawned[b]? = some task) (e : Builder.Event) :
    s.drive b e =
      ({ s with spawned := s.spawned.set b { task with loop := (Builder.loopStep task.loop e).1 } },
        (Builder.loopStep task.loop e).2.map (.builder b)) := by
  unfold System.drive
  rw [h]

/-- A living receiver's channel takes the update. -/
theorem push_alive {s : System} {b : Nat} (h : s.alive b = true) (c : Nat) (request : Request)
    (update : OrderBookUpdate) :
    ∃ task, s.spawned[b]? = some task ∧
      s.push c request b update =
        ({ s with spawned := s.spawned.set b { task with
            loop := { task.loop with channel := task.loop.channel ++ [update] } } }.setCall c request .done,
          [.sent c b update]) := by
  unfold System.alive at h
  obtain ⟨task, htask, hopen⟩ := (Option.any_eq_true _ _).mp h
  refine ⟨task, htask, ?_⟩
  simp only [Bool.and_eq_true, Bool.not_eq_true'] at hopen
  unfold System.push
  rw [drive_some htask, Builder.loopStep_send hopen.2]

/-- **Every action is one of these.** -/
theorem move_step (s : System) (a : Action) : Move s a (s.step a).1 (s.step a).2 := by
  cases a with
  | call request => exact .called request
  | step st =>
      show Move s (.step st) (s.advance st).1 (s.advance st).2
      unfold System.advance
      cases st with
      | check c =>
          dsimp only
          split
          · next request hcall =>
              unfold System.check
              split
              · next b hfound => exact .found c request b hcall hfound
              · next hnone => exact .created c request hcall hnone
          · exact .idle _
      | store c =>
          dsimp only
          split
          · next request b hcall => exact .stored c request b hcall
          · exact .idle _
      | send c =>
          dsimp only
          split
          · next request b hcall =>
              unfold System.send
              split
              · exact .returned c _ b hcall rfl
              · next update =>
                  split_ifs with halive hroom
                  · exact .failed c _ b update hcall rfl (by simp_all)
                  · obtain ⟨task, htask, hpush⟩ := push_alive (by simpa using halive) c (.sendUpdate update) update
                    rw [hpush]
                    exact .sent c _ b update task hcall rfl htask
                  · exact .idle _
              · next update =>
                  split_ifs with hboth
                  · obtain ⟨task, htask, hpush⟩ :=
                      push_alive (Bool.and_eq_true_iff.mp hboth).1 c (.trySendUpdate update) update
                    rw [hpush]
                    exact .sent c _ b update task hcall rfl htask
                  · exact .failed c _ b update hcall rfl (by simpa using hboth)
          · exact .idle _
      | iterate b expired =>
          dsimp only
          cases htask : s.spawned[b]? with
          | some task =>
              rw [drive_some htask]
              exact .iterated b expired task htask
          | none =>
              unfold System.drive
              rw [htask]
              exact .idle _
      | close b =>
          dsimp only
          split_ifs with hheld
          · exact .idle _
          · cases htask : s.spawned[b]? with
            | some task =>
                rw [drive_some htask]
                exact .closed b task htask (by simpa using hheld)
            | none =>
                unfold System.drive
                rw [htask]
                exact .idle _

/-! ## Runs -/

def after (acts : List Action) : System := (Machine.run System.step .new acts).1

def effects (acts : List Action) : List Effect := (Machine.run System.step .new acts).2

theorem after_snoc (acts : List Action) (a : Action) : after (acts ++ [a]) = ((after acts).step a).1 := by
  unfold after
  rw [Machine.run_append_state, Machine.run_cons, Machine.run_nil]

end Manager
end TradingPlatform
