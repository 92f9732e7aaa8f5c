import TradingPlatform.Feed.Sync
import TradingPlatform.Feed.Binance
import TradingPlatform.Library.Machine
import Mathlib.Data.List.Induction

/-!
# `Feed.System` — one synchroniser over time

Two things ever happen to a synchroniser: the fetch task stores a snapshot, and a depth message reaches it.
`DepthStep` lists the five ways the second can go; everything proved about runs is a case analysis over it.

Also here: what every reachable synchroniser satisfies whatever the messages are. Its buffer holds events it
has received, and once a snapshot is there a failed attempt leaves the buffer empty.
-/

namespace TradingPlatform
namespace Feed

open Json Stamped BinanceOrderbookSynchronizer BufferedDepthEvent

/-! ## A depth message -/

/-- The events an unsynchronised `s` tries to join to a snapshot with id `last` when `e` arrives. -/
def pending (s : BinanceOrderbookSynchronizer) (last : Nat) (e : BufferedDepthEvent) :
    List BufferedDepthEvent := retained last (makeRoom s.eventBuffer ++ [e])

/-- The ways a depth message can go. -/
inductive DepthStep (s : BinanceOrderbookSynchronizer) (data : Value) :
    BinanceOrderbookSynchronizer × List Value → Prop where
  /-- Synchronised, and the event follows: it is delivered. -/
  | deliver (hsync : s.isSynchronized = true) (hfol : (depthEvent data).Follows s.lastValidatedUpdateId) :
      DepthStep s data ({ s with lastValidatedUpdateId := (depthEvent data).finalUpdateId }, [data])
  /-- Synchronised, but a gap: the flag is dropped and the event buffered. -/
  | gap (hsync : s.isSynchronized = true) (hgap : ¬ (depthEvent data).Follows s.lastValidatedUpdateId) :
      DepthStep s data ({ s.bufferEvent (depthEvent data) with isSynchronized := false }, [])
  /-- No snapshot yet: the event is buffered. -/
  | wait (hsync : s.isSynchronized = false) (hsnap : s.snapshot = none) :
      DepthStep s data (s.bufferEvent (depthEvent data), [])
  /-- The pending events join the snapshot and are delivered together. -/
  | join (hsync : s.isSynchronized = false) (snap : BinanceSnapshot) (hsnap : s.snapshot = some snap)
      (hacc : Accepts snap.lastUpdateId (pending s snap.lastUpdateId (depthEvent data))) :
      DepthStep s data (s.synced snap.lastUpdateId (pending s snap.lastUpdateId (depthEvent data)),
        (pending s snap.lastUpdateId (depthEvent data)).map BufferedDepthEvent.data)
  /-- They do not join it and are lost. -/
  | reject (hsync : s.isSynchronized = false) (snap : BinanceSnapshot) (hsnap : s.snapshot = some snap)
      (hrej : ¬ Accepts snap.lastUpdateId (pending s snap.lastUpdateId (depthEvent data))) :
      DepthStep s data (s.cleared, [])

/-- **What a depth message can do.** -/
theorem depthStep (s : BinanceOrderbookSynchronizer) (data : Value) :
    DepthStep s data (handleDepth s data) := by
  unfold handleDepth needsSync
  cases hsync : s.isSynchronized with
  | true =>
      rw [Bool.not_true, if_neg Bool.false_ne_true]
      by_cases hfol : (depthEvent data).Follows s.lastValidatedUpdateId
      · rw [validateEvent_follows hsync hfol]
        exact .deliver hsync hfol
      · rw [validateEvent_gap hsync hfol]
        exact .gap hsync hfol
  | false =>
      rw [Bool.not_false, if_pos rfl]
      rcases synchronize_cases (s.bufferEvent (depthEvent data)) with
        ⟨hsnap, text, htext⟩ | ⟨snap, hsnap, ⟨hacc, hok⟩ | ⟨hrej, text, htext⟩⟩
      · rw [htext]
        exact .wait hsync hsnap
      · rw [hok]
        exact .join hsync snap hsnap hacc
      · rw [htext]
        exact .reject hsync snap hsnap hrej

/-- A synchronised `s` delivers the message or finds a gap. -/
theorem handleDepth_of_synced {s : BinanceOrderbookSynchronizer} (hs : s.isSynchronized = true) (data : Value) :
    ((depthEvent data).Follows s.lastValidatedUpdateId ∧
      handleDepth s data = ({ s with lastValidatedUpdateId := (depthEvent data).finalUpdateId }, [data])) ∨
    (¬ (depthEvent data).Follows s.lastValidatedUpdateId ∧
      handleDepth s data = ({ s.bufferEvent (depthEvent data) with isSynchronized := false }, [])) := by
  have hstep := depthStep s data
  generalize handleDepth s data = r at hstep ⊢
  cases hstep with
  | deliver _ hfol => exact Or.inl ⟨hfol, rfl⟩
  | gap _ hgap => exact Or.inr ⟨hgap, rfl⟩
  | wait hno => exact absurd (hno.symm.trans hs) Bool.false_ne_true
  | join hno => exact absurd (hno.symm.trans hs) Bool.false_ne_true
  | reject hno => exact absurd (hno.symm.trans hs) Bool.false_ne_true

/-- An unsynchronised `s` waits for a snapshot, or joins it, or loses what is pending. -/
theorem handleDepth_of_unsynced {s : BinanceOrderbookSynchronizer} (hs : s.isSynchronized = false)
    (data : Value) :
    (s.snapshot = none ∧ handleDepth s data = (s.bufferEvent (depthEvent data), [])) ∨
    ∃ snap, s.snapshot = some snap ∧
      ((Accepts snap.lastUpdateId (pending s snap.lastUpdateId (depthEvent data)) ∧
          handleDepth s data = (s.synced snap.lastUpdateId (pending s snap.lastUpdateId (depthEvent data)),
            (pending s snap.lastUpdateId (depthEvent data)).map BufferedDepthEvent.data)) ∨
        (¬ Accepts snap.lastUpdateId (pending s snap.lastUpdateId (depthEvent data)) ∧
          handleDepth s data = (s.cleared, []))) := by
  have hstep := depthStep s data
  generalize handleDepth s data = r at hstep ⊢
  cases hstep with
  | deliver hsync => exact absurd (hs.symm.trans hsync) Bool.false_ne_true
  | gap hsync => exact absurd (hs.symm.trans hsync) Bool.false_ne_true
  | wait _ hsnap => exact Or.inl ⟨hsnap, rfl⟩
  | join _ snap hsnap hacc => exact Or.inr ⟨snap, hsnap, Or.inl ⟨hacc, rfl⟩⟩
  | reject _ snap hsnap hrej => exact Or.inr ⟨snap, hsnap, Or.inr ⟨hrej, rfl⟩⟩

/-! ## Runs -/

/-- What can happen to a synchroniser: `fetchSnapshot` succeeds, or a message comes in. -/
inductive SyncInput where
  | fetched (snapshot : BinanceSnapshot)
  | message (data : Value)

def syncStep (s : BinanceOrderbookSynchronizer) : SyncInput → BinanceOrderbookSynchronizer × List Value
  | .fetched snapshot => ({ s with snapshot := some snapshot }, [])
  | .message data     => handleDepth s data

/-- The depth events among the inputs. -/
def received (is : List SyncInput) : List BufferedDepthEvent :=
  is.filterMap fun
    | .fetched _    => none
    | .message data => some (depthEvent data)

@[simp] theorem received_nil : received [] = [] := rfl

theorem received_append (is js : List SyncInput) : received (is ++ js) = received is ++ received js :=
  List.filterMap_append ..

@[simp] theorem received_fetched (snapshot : BinanceSnapshot) : received [.fetched snapshot] = [] := rfl

@[simp] theorem received_message (data : Value) : received [.message data] = [depthEvent data] := rfl

theorem mem_pending {s : BinanceOrderbookSynchronizer} {last : Nat} {e f : BufferedDepthEvent}
    (h : f ∈ pending s last e) : f ∈ s.eventBuffer ∨ f = e := by
  rcases List.mem_append.mp (List.mem_of_mem_filter h) with h | h
  · exact Or.inl (mem_of_mem_makeRoom h)
  · exact Or.inr (List.mem_singleton.mp h)

/-- A buffer after one more step holds old events and at most the new one. -/
theorem mem_eventBuffer_syncStep {s : BinanceOrderbookSynchronizer} {i : SyncInput} {e : BufferedDepthEvent}
    (h : e ∈ (syncStep s i).1.eventBuffer) : e ∈ s.eventBuffer ∨ e ∈ received [i] := by
  have hadd : ∀ data, e ∈ makeRoom s.eventBuffer ++ [depthEvent data] →
      e ∈ s.eventBuffer ∨ e ∈ received [.message data] := by
    intro data h
    rcases List.mem_append.mp h with h | h
    · exact Or.inl (mem_of_mem_makeRoom h)
    · exact Or.inr h
  cases i with
  | fetched snapshot => exact Or.inl h
  | message data =>
      have hstep := depthStep s data
      change e ∈ (handleDepth s data).1.eventBuffer at h
      generalize handleDepth s data = r at h hstep
      cases hstep with
      | deliver => exact Or.inl h
      | gap => exact hadd data h
      | wait => exact hadd data h
      | join => cases h
      | reject => cases h

/-- Everything buffered was received. -/
theorem eventBuffer_subset_received (symbol assetType : String) (is : List SyncInput) :
    ∀ e ∈ (Machine.run syncStep (new symbol assetType) is).1.eventBuffer, e ∈ received is := by
  induction is using List.reverseRecOn with
  | nil => intro e he; cases he
  | append_singleton is i ih =>
      intro e he
      rw [Machine.run_append_state] at he
      rw [received_append]
      rcases mem_eventBuffer_syncStep he with he | he
      · exact List.mem_append_left _ (ih e he)
      · exact List.mem_append_right _ he

/-- A received event is what its own message says. -/
theorem depthEvent_of_received {is : List SyncInput} {e : BufferedDepthEvent} (h : e ∈ received is) :
    depthEvent e.data = e := by
  obtain ⟨i, _, hi⟩ := List.mem_filterMap.mp h
  cases i with
  | fetched snapshot => cases hi
  | message data =>
      obtain rfl := Option.some.inj hi
      rfl

/-- Every buffered event is what its own message says. -/
def Genuine (s : BinanceOrderbookSynchronizer) : Prop := ∀ e ∈ s.eventBuffer, depthEvent e.data = e

theorem Genuine.of_empty {s : BinanceOrderbookSynchronizer} (h : s.eventBuffer = []) : Genuine s := by
  intro e he
  rw [h] at he
  cases he

theorem Genuine.syncStep {s : BinanceOrderbookSynchronizer} (h : Genuine s) (i : SyncInput) :
    Genuine (syncStep s i).1 := by
  intro e he
  rcases mem_eventBuffer_syncStep he with he | he
  · exact h e he
  · exact depthEvent_of_received he

theorem Genuine.pending {s : BinanceOrderbookSynchronizer} (h : Genuine s) (last : Nat) (data : Value) :
    ∀ e ∈ pending s last (depthEvent data), depthEvent e.data = e := by
  intro e he
  rcases mem_pending he with he | rfl
  · exact h e he
  · rfl

/-- The ids of a message are `u64`s. -/
theorem finalUpdateId_lt (data : Value) : (depthEvent data).finalUpdateId < 2 ^ 64 := by
  show ((data.get? "u").bind Value.asU64?).getD 0 < 2 ^ 64
  cases h : (data.get? "u").bind Value.asU64? with
  | none => decide
  | some u =>
      obtain ⟨v, _, hv⟩ := Option.bind_eq_some_iff.mp h
      exact Value.asU64?_lt hv

theorem firstUpdateId_lt (data : Value) : (depthEvent data).firstUpdateId < 2 ^ 64 := by
  show ((data.get? "U").bind Value.asU64?).getD (depthEvent data).finalUpdateId < 2 ^ 64
  cases h : (data.get? "U").bind Value.asU64? with
  | none => exact finalUpdateId_lt data
  | some u =>
      obtain ⟨v, _, hv⟩ := Option.bind_eq_some_iff.mp h
      exact Value.asU64?_lt hv

/-! ## Messages with given ids -/

/-- A depth message of the exchange: spot messages have no `pu`, futures messages do. -/
def depthMessage (symbol : String) (U u : Nat) (pu : Option Nat) : Value :=
  .object ([("e", .string "depthUpdate"), ("s", .string symbol), ("U", Value.ofNat U), ("u", Value.ofNat u),
    ("b", .array []), ("a", .array [])] ++ (pu.map fun pu => ("pu", Value.ofNat pu)).toList)

theorem depthEvent_depthMessage {symbol : String} {U u : Nat} {pu : Option Nat} (hU : U < 2 ^ 64)
    (hu : u < 2 ^ 64) (hpu : ∀ p ∈ pu, p < 2 ^ 64) :
    depthEvent (depthMessage symbol U u pu) = ⟨U, u, pu, depthMessage symbol U u pu⟩ := by
  have hgetU : ((depthMessage symbol U u pu).get? "U").bind Value.asU64? = some U := Value.asU64?_ofNat hU
  have hgetu : ((depthMessage symbol U u pu).get? "u").bind Value.asU64? = some u := Value.asU64?_ofNat hu
  have hgetpu : ((depthMessage symbol U u pu).get? "pu").bind Value.asU64? = pu := by
    cases pu with
    | none => rfl
    | some p => exact Value.asU64?_ofNat (hpu p rfl)
  unfold depthEvent
  rw [hgetU, hgetu, hgetpu]
  rfl

end Feed
end TradingPlatform
