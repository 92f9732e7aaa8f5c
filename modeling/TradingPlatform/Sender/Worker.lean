import TradingPlatform.Sender.Encodes
import TradingPlatform.Library.Machine
import Mathlib.Algebra.Order.BigOperators.Group.List

/-!
# `Sender.Worker` — the task of the binary sender

Messages are put into a channel; the task takes them out into a buffer and sends the buffer when it is full, when
enough time has passed or when no message comes. When the channel is closed the task ends at once, with whatever
is in the buffer. What counts as sent are the datagrams handed to the socket, against the packets of the accepted
messages (`sends_all_accepted_iff`). The packets are those of the release build, as in `Sender.Packet`.
-/

namespace TradingPlatform
namespace Sender

open Rust Machine

namespace Worker

/-- Safe MTU size. -/
def maxUdpPacketSize : Nat := 1472

/-- Number of packets to batch together. -/
def batchSize : Nat := 50

inductive BinaryUdpMessage where
  | trade (trade : TradeData)
  | orderBook (orderbook : OrderBookData)
  | stats (exchange : String) (trades orderbooks : Nat)
  | connectionStatus (exchange : String) (connected disconnected reconnectCount total : Nat)
deriving DecidableEq

/-! ## Sending a message -/

/-- A packet that is too large is not sent. -/
def small (packet : BinaryUdpPacket) : List (List UInt8) :=
  if packet.toBytes.length ≤ maxUdpPacketSize then [packet.toBytes] else []

/-- The packet of one side, if it has levels. -/
def sideDatagrams (orderbook : OrderBookData) (isBid : Bool) (now : Nat) : Option (List (List UInt8)) :=
  if orderbook.levels isBid = [] then some [] else (BinaryUdpPacket.fromOrderbook orderbook isBid now).map small

/-- What a message is sent as, with the clock at its packets, in nanoseconds; `none` is a panic. Both sides of a
    book panic alike. -/
def BinaryUdpMessage.datagrams (first second : Nat) : BinaryUdpMessage → Option (List (List UInt8))
  | .trade data     => (BinaryUdpPacket.fromTrade data first).map small
  | .orderBook book => do
    let bids ← sideDatagrams book true first
    let asks ← sideDatagrams book false second
    return bids ++ asks
  | .stats exchange trades orderbooks =>
    some [utf8Bytes s!"STATS|{exchange}|{trades}|{orderbooks}|{first / 1000000000}"]
  | .connectionStatus exchange connected disconnected reconnectCount total =>
    some [utf8Bytes s!"CONN|{exchange}|{connected}|{disconnected}|{reconnectCount}|{total}"]

/-- The message has packets. -/
def BinaryUdpMessage.Encodes : BinaryUdpMessage → Prop
  | .trade data                 => data.Encodes
  | .orderBook book             => ∀ isBid, book.levels isBid ≠ [] → book.Encodes isBid
  | .stats _ _ _                => True
  | .connectionStatus _ _ _ _ _ => True

theorem sideDatagrams_isSome_iff (orderbook : OrderBookData) (isBid : Bool) (now : Nat) :
    (sideDatagrams orderbook isBid now).isSome ↔ (orderbook.levels isBid ≠ [] → orderbook.Encodes isBid) := by
  unfold sideDatagrams
  by_cases hnil : orderbook.levels isBid = []
  · rw [if_pos hnil]
    exact iff_of_true rfl fun hne => absurd hnil hne
  · rw [if_neg hnil, Option.isSome_map, fromOrderbook_isSome_iff]
    exact ⟨fun h _ => h, fun h => h hnil⟩

theorem datagrams_isSome_iff (message : BinaryUdpMessage) (first second : Nat) :
    (message.datagrams first second).isSome ↔ message.Encodes := by
  cases message with
  | trade trade =>
      show ((BinaryUdpPacket.fromTrade trade first).map small).isSome ↔ _
      rw [Option.isSome_map]
      exact fromTrade_isSome_iff trade first
  | orderBook orderbook =>
      have hbids := sideDatagrams_isSome_iff orderbook true first
      have hasks := sideDatagrams_isSome_iff orderbook false second
      rw [Option.isSome_iff_exists] at hbids hasks
      show (sideDatagrams orderbook true first >>= fun bids => _).isSome ↔ ∀ isBid, _
      simp only [bind_isSome_iff]
      constructor
      · rintro ⟨bids, hb, asks, ha, -⟩ isBid
        cases isBid with
        | true => exact hbids.mp ⟨bids, hb⟩
        | false => exact hasks.mp ⟨asks, ha⟩
      · intro h
        obtain ⟨bids, hb⟩ := hbids.mpr (h true)
        obtain ⟨asks, ha⟩ := hasks.mpr (h false)
        exact ⟨bids, hb, asks, ha, rfl⟩
  | stats exchange trades orderbooks => exact iff_of_true rfl trivial
  | connectionStatus exchange connected disconnected reconnectCount total => exact iff_of_true rfl trivial

/-! ## The packets of a message -/

theorem length_header (header : Receiver.PacketHeader) :
    header.toNetworkOrder.memory.length = 18 + header.symbol.length + header.exchange.length := by
  unfold Receiver.PacketHeader.memory Receiver.PacketHeader.toNetworkOrder
  simp only [List.length_append, length_toLe, List.length_singleton]

theorem small_of_length {header : Receiver.PacketHeader} {payload : List UInt8} {packet : BinaryUdpPacket}
    (hsymbol : header.symbol.length = 20) (hexchange : header.exchange.length = 20) (hpayload : payload.length ≤ 112)
    (h : ⟨header, payload⟩ = packet) : small packet = [packet.toBytes] := by
  subst h
  refine if_pos ?_
  show (header.toNetworkOrder.memory ++ payload).length ≤ maxUdpPacketSize
  rw [List.length_append, length_header, hsymbol, hexchange]
  unfold maxUdpPacketSize
  omega

/-- A trade has one packet, and it is small enough. -/
theorem small_of_fromTrade {trade : TradeData} {now : Nat} {packet : BinaryUdpPacket}
    (h : BinaryUdpPacket.fromTrade trade now = some packet) : small packet = [packet.toBytes] := by
  obtain ⟨timestamp, -, h⟩ := Option.bind_eq_some_iff.mp h
  obtain ⟨item, -, h⟩ := Option.bind_eq_some_iff.mp h
  refine small_of_length (length_nameField _) (length_nameField _) ?_ (Option.some.inj h)
  unfold Receiver.TradeItem.memory
  simp [length_toLe]

theorem small_of_fromOrderbook {orderbook : OrderBookData} {isBid : Bool} {now : Nat} {packet : BinaryUdpPacket}
    (h : BinaryUdpPacket.fromOrderbook orderbook isBid now = some packet) : small packet = [packet.toBytes] := by
  obtain ⟨timestamp, -, h⟩ := Option.bind_eq_some_iff.mp h
  obtain ⟨items, hitems, h⟩ := Option.bind_eq_some_iff.mp h
  refine small_of_length (length_nameField _) (length_nameField _) ?_ (Option.some.inj h)
  have hlength := length_items hitems
  rw [length_payload]
  omega

/-- The number of packets. A book has one for each side that has levels. -/
def BinaryUdpMessage.count : BinaryUdpMessage → Nat
  | .trade _                    => 1
  | .orderBook book             => (if book.bids = [] then 0 else 1) + if book.asks = [] then 0 else 1
  | .stats _ _ _                => 1
  | .connectionStatus _ _ _ _ _ => 1

theorem length_sideDatagrams {orderbook : OrderBookData} {isBid : Bool} {now : Nat} {packets : List (List UInt8)}
    (h : sideDatagrams orderbook isBid now = some packets) :
    packets.length = if orderbook.levels isBid = [] then 0 else 1 := by
  unfold sideDatagrams at h
  split_ifs at h ⊢ with hnil
  · rw [← Option.some.inj h]
    rfl
  · obtain ⟨packet, hpacket, rfl⟩ := Option.map_eq_some_iff.mp h
    rw [small_of_fromOrderbook hpacket]
    rfl

/-- The clock does not change the number of packets. -/
theorem length_datagrams {message : BinaryUdpMessage} {first second : Nat} {packets : List (List UInt8)}
    (h : message.datagrams first second = some packets) : packets.length = message.count := by
  cases message with
  | trade trade =>
      obtain ⟨packet, hpacket, rfl⟩ := Option.map_eq_some_iff.mp h
      rw [small_of_fromTrade hpacket]
      rfl
  | orderBook orderbook =>
      obtain ⟨bids, hbids, h⟩ := Option.bind_eq_some_iff.mp h
      obtain ⟨asks, hasks, h⟩ := Option.bind_eq_some_iff.mp h
      rw [← Option.some.inj h, List.length_append, length_sideDatagrams hbids, length_sideDatagrams hasks]
      rfl
  | stats exchange trades orderbooks =>
      rw [← Option.some.inj h]
      rfl
  | connectionStatus exchange connected disconnected reconnectCount total =>
      rw [← Option.some.inj h]
      rfl

/-! ## The task -/

inductive Event where
  /-- The channel has taken the message. -/
  | accepted (message : BinaryUdpMessage)
  /-- These datagrams were handed to the socket for the message. -/
  | sent (message : BinaryUdpMessage) (datagrams : List (List UInt8))
deriving DecidableEq

def accepted (events : List Event) : List BinaryUdpMessage :=
  events.filterMap fun event => match event with | .accepted message => some message | .sent _ _ => none

def sent (events : List Event) : List BinaryUdpMessage :=
  events.filterMap fun event => match event with | .accepted _ => none | .sent message _ => some message

/-- What was handed to the socket, in order. -/
def handed (events : List Event) : List (List UInt8) :=
  events.flatMap fun event => match event with | .accepted _ => [] | .sent _ datagrams => datagrams

/-- The datagrams are the packets of the messages, each encoded once, in order; every message has some. -/
inductive SentOnce : List BinaryUdpMessage → List (List UInt8) → Prop where
  | nil  : SentOnce [] []
  | cons {message : BinaryUdpMessage} {messages : List BinaryUdpMessage} {packets rest : List (List UInt8)}
      {first second : Nat} (hpackets : message.datagrams first second = some packets) (hne : packets ≠ [])
      (hrest : SentOnce messages rest) : SentOnce (message :: messages) (packets ++ rest)

/-- Send every packet of the buffer. A panic leaves out its message and those after it. -/
def flushBinaryPackets (clock : Nat → Nat) : List BinaryUdpMessage → List Event × List BinaryUdpMessage
  | []                  => ([], [])
  | message :: messages =>
    match message.datagrams (clock 0) (clock 1) with
    | none           => ([], message :: messages)
    | some datagrams =>
      let (events, unsent) := flushBinaryPackets (fun i => clock (i + 2)) messages
      (.sent message datagrams :: events, unsent)

structure State where
  /-- in the channel -/
  queue        : List BinaryUdpMessage
  closed       : Bool
  packetBuffer : List BinaryUdpMessage
  ended        : Bool
deriving DecidableEq

namespace State

def start : State := { queue := [], closed := false, packetBuffer := [], ended := false }

/-- A panic ends the task; what was not sent stays behind in the buffer. -/
def flush (state : State) (clock : Nat → Nat) : State × List Event :=
  let (events, unsent) := flushBinaryPackets clock state.packetBuffer
  ({ state with packetBuffer := unsent, ended := decide (unsent ≠ []) }, events)

end State

inductive Action where
  | send (message : BinaryUdpMessage)
  /-- The last sender is dropped. -/
  | close
  /-- The receive is ready; `elapsed` if the last flush was too long ago. -/
  | recv (elapsed : Bool) (clock : Nat → Nat)
  | timeout (clock : Nat → Nat)

def step (state : State) : Action → State × List Event
  | .send message       =>
    if state.closed ∨ state.ended then (state, [])
    else ({ state with queue := state.queue ++ [message] }, [.accepted message])
  | .close              => ({ state with closed := true }, [])
  | .recv elapsed clock =>
    if state.ended then (state, [])
    else
      match state.queue with
      | packet :: queue =>
        let state := { state with queue, packetBuffer := state.packetBuffer ++ [packet] }
        if state.packetBuffer.length ≥ batchSize ∨ elapsed then state.flush clock else (state, [])
      | []              => (if state.closed then { state with ended := true } else state, [])
  | .timeout clock      =>
    if state.ended ∨ state.packetBuffer = [] then (state, []) else state.flush clock

/-! ## Nothing is lost before the end -/

/-- Accepted and not yet sent. -/
def State.pending (state : State) : List BinaryUdpMessage := state.packetBuffer ++ state.queue

theorem flushBinaryPackets_conserves (clock : Nat → Nat) (messages : List BinaryUdpMessage) :
    accepted (flushBinaryPackets clock messages).1 = [] ∧
      sent (flushBinaryPackets clock messages).1 ++ (flushBinaryPackets clock messages).2 = messages := by
  induction messages generalizing clock with
  | nil => exact ⟨rfl, rfl⟩
  | cons message messages ih =>
      unfold flushBinaryPackets
      cases hdatagrams : message.datagrams (clock 0) (clock 1) with
      | none => exact ⟨rfl, rfl⟩
      | some datagrams =>
          obtain ⟨haccepted, hsent⟩ := ih fun i => clock (i + 2)
          exact ⟨haccepted, congrArg (message :: ·) hsent⟩

/-- What is left unsent starts with a message that panics. -/
theorem flushBinaryPackets_unsent_iff (clock : Nat → Nat) (messages : List BinaryUdpMessage) :
    (flushBinaryPackets clock messages).2 = [] ↔ ∀ message ∈ messages, message.Encodes := by
  induction messages generalizing clock with
  | nil => exact iff_of_true rfl nofun
  | cons message messages ih =>
      have hsome := datagrams_isSome_iff message (clock 0) (clock 1)
      rw [List.forall_mem_cons]
      unfold flushBinaryPackets
      cases hdatagrams : message.datagrams (clock 0) (clock 1) with
      | none =>
          rw [hdatagrams] at hsome
          exact iff_of_false (List.cons_ne_nil _ _) fun h => Bool.false_ne_true (hsome.mpr h.1)
      | some datagrams =>
          rw [hdatagrams] at hsome
          exact (ih _).trans (and_iff_right (hsome.mp rfl)).symm

theorem flush_conserves (state : State) (clock : Nat → Nat) :
    accepted (state.flush clock).2 = [] ∧
      sent (state.flush clock).2 ++ (state.flush clock).1.pending = state.pending := by
  obtain ⟨haccepted, hsent⟩ := flushBinaryPackets_conserves clock state.packetBuffer
  refine ⟨haccepted, ?_⟩
  show sent (flushBinaryPackets clock state.packetBuffer).1 ++
    ((flushBinaryPackets clock state.packetBuffer).2 ++ state.queue) = state.packetBuffer ++ state.queue
  rw [← List.append_assoc, hsent]

/-- **One step** keeps account: what was pending or comes in is sent or pending. -/
theorem step_conserves (state : State) (action : Action) :
    sent (step state action).2 ++ (step state action).1.pending =
      state.pending ++ accepted (step state action).2 := by
  cases action with
  | send message =>
      unfold step
      dsimp only
      split
      · exact (List.append_nil _).symm
      · show state.packetBuffer ++ (state.queue ++ [message]) = state.packetBuffer ++ state.queue ++ [message]
        rw [List.append_assoc]
  | close => exact (List.append_nil _).symm
  | recv elapsed clock =>
      unfold step
      dsimp only
      split
      · exact (List.append_nil _).symm
      cases hqueue : state.queue with
      | nil =>
          dsimp only
          have hpending : (if state.closed then { state with queue := [], ended := true } else state).pending =
              state.pending := by
            split
            · rw [State.pending, State.pending, hqueue]
            · rfl
          exact hpending.trans (List.append_nil _).symm
      | cons packet queue =>
          have hpending : state.pending = state.packetBuffer ++ [packet] ++ queue := by
            rw [State.pending, hqueue, List.append_assoc]
            rfl
          dsimp only
          split
          · obtain ⟨haccepted, hsent⟩ :=
              flush_conserves { state with queue, packetBuffer := state.packetBuffer ++ [packet] } clock
            rw [haccepted, hsent, hpending, List.append_nil]
            rfl
          · rw [hpending]
            exact (List.append_nil _).symm
  | timeout clock =>
      unfold step
      dsimp only
      split
      · exact (List.append_nil _).symm
      · obtain ⟨haccepted, hsent⟩ := flush_conserves state clock
        rw [haccepted, hsent, List.append_nil]

theorem run_conserves (state : State) (actions : List Action) :
    sent (run step state actions).2 ++ (run step state actions).1.pending =
      state.pending ++ accepted (run step state actions).2 := by
  induction actions generalizing state with
  | nil => exact (List.append_nil _).symm
  | cons action actions ih =>
      have hstep := step_conserves state action
      have hrun := ih (step state action).1
      unfold sent accepted at hstep hrun ⊢
      rw [run_cons, List.filterMap_append, List.filterMap_append, List.append_assoc, hrun, ← List.append_assoc, hstep,
        List.append_assoc]

/-! ## The end -/

/-- The close of the channel is received with an empty buffer. -/
def ClosesEmpty (state : State) : Action → Prop
  | .send _    => True
  | .close     => True
  | .recv _ _  => state.ended = false → state.closed = true → state.queue = [] → state.packetBuffer = []
  | .timeout _ => True

instance (state : State) : (action : Action) → Decidable (ClosesEmpty state action)
  | .send _    => isTrue trivial
  | .close     => isTrue trivial
  | .recv _ _  => inferInstanceAs (Decidable (_ → _ → _ → _))
  | .timeout _ => isTrue trivial

/-- After its end the task does nothing. -/
theorem step_ended {state : State} (h : state.ended = true) (action : Action) :
    (step state action).1.ended = true ∧ (step state action).1.pending = state.pending := by
  cases action with
  | send message =>
      have hclosed : state.closed = true ∨ state.ended = true := .inr h
      unfold step
      dsimp only
      rw [if_pos hclosed]
      exact ⟨h, rfl⟩
  | close => exact ⟨h, rfl⟩
  | recv elapsed clock =>
      unfold step
      dsimp only
      rw [if_pos h]
      exact ⟨h, rfl⟩
  | timeout clock =>
      have hended : state.ended = true ∨ state.packetBuffer = [] := .inl h
      unfold step
      dsimp only
      rw [if_pos hended]
      exact ⟨h, rfl⟩

theorem run_ended {state : State} (h : state.ended = true) (actions : List Action) :
    (run step state actions).1.pending = state.pending := by
  induction actions generalizing state with
  | nil => rfl
  | cons action actions ih =>
      obtain ⟨hended, hpending⟩ := step_ended h action
      exact (ih hended).trans hpending

/-- A run with nothing left behind has received the close with an empty buffer. -/
theorem closesEmpty_of_pending_nil {state : State} {actions : List Action}
    (h : (run step state actions).1.pending = []) : Guarded step ClosesEmpty state actions := by
  induction actions generalizing state with
  | nil => trivial
  | cons action actions ih =>
      refine ⟨?_, ih h⟩
      cases action with
      | send message => trivial
      | close => trivial
      | timeout clock => trivial
      | recv elapsed clock =>
          intro hrunning hclosed hqueue
          have hstep : step state (.recv elapsed clock) = ({ state with ended := true }, []) := by
            unfold step
            dsimp only
            rw [if_neg (Bool.not_eq_true _ ▸ hrunning), hqueue]
            dsimp only
            rw [if_pos hclosed, ← hqueue]
          have hended : (step state (.recv elapsed clock)).1.ended = true := by rw [hstep]
          rw [run_cons, run_ended hended, hstep] at h
          exact (List.append_eq_nil_iff.mp h).1

/-- What is pending can be encoded, and an ended task has left nothing. -/
structure Inv (state : State) : Prop where
  encodes : ∀ message ∈ state.pending, message.Encodes
  ended   : state.ended = true → state.pending = []

theorem Inv.start : Inv .start := ⟨nofun, fun _ => rfl⟩

theorem flush_running {state : State} (h : ∀ message ∈ state.packetBuffer, message.Encodes) (clock : Nat → Nat) :
    (state.flush clock).1.ended = false :=
  decide_eq_false (not_not.mpr ((flushBinaryPackets_unsent_iff clock state.packetBuffer).mpr h))

/-- **One step** ends the task only when nothing is left. -/
theorem step_ends {state : State} (h : ∀ message ∈ state.pending, message.Encodes)
    (hrunning : state.ended = false) {action : Action} (hguard : ClosesEmpty state action)
    (hended : (step state action).1.ended = true) : (step state action).1.pending = [] := by
  have hbuffer : ∀ message ∈ state.packetBuffer, message.Encodes := fun message hmem =>
    h message (List.mem_append_left _ hmem)
  have hgoes : ¬ state.ended = true := Bool.not_eq_true _ ▸ hrunning
  cases action with
  | send message =>
      unfold step at hended
      dsimp only at hended
      split at hended <;> exact absurd hended hgoes
  | close => exact absurd hended hgoes
  | timeout clock =>
      unfold step at hended
      dsimp only at hended
      split at hended
      · exact absurd hended hgoes
      · exact absurd hended (Bool.not_eq_true _ ▸ flush_running hbuffer clock)
  | recv elapsed clock =>
      unfold step at hended ⊢
      dsimp only at hended ⊢
      rw [if_neg hgoes] at hended ⊢
      cases hqueue : state.queue with
      | nil =>
          rw [hqueue] at hended
          dsimp only at hended ⊢
          by_cases hclosed : state.closed = true
          · rw [if_pos hclosed]
            exact List.append_eq_nil_iff.mpr ⟨hguard hrunning hclosed hqueue, rfl⟩
          · rw [if_neg hclosed] at hended
            exact absurd hended hgoes
      | cons packet queue =>
          rw [hqueue] at hended
          dsimp only at hended
          have hbuffer' : ∀ message ∈ state.packetBuffer ++ [packet], message.Encodes := by
            intro message hmem
            refine h message ?_
            rw [State.pending, hqueue]
            rcases List.mem_append.mp hmem with hmem | hmem
            · exact List.mem_append_left _ hmem
            · rw [List.mem_singleton.mp hmem]
              exact List.mem_append_right _ List.mem_cons_self
          split at hended
          · exact absurd hended (Bool.not_eq_true _ ▸ flush_running hbuffer' clock)
          · exact absurd hended hgoes

theorem Inv.step {state : State} (h : Inv state) {action : Action} (hguard : ClosesEmpty state action)
    (haccepted : ∀ message ∈ accepted (step state action).2, message.Encodes) : Inv (step state action).1 := by
  constructor
  · intro message hmem
    have hall := List.mem_append_right (sent (Worker.step state action).2) hmem
    rw [step_conserves] at hall
    rcases List.mem_append.mp hall with hmem | hmem
    · exact h.encodes message hmem
    · exact haccepted message hmem
  · intro hended
    by_cases hrunning : state.ended = true
    · rw [(step_ended hrunning action).2]
      exact h.ended hrunning
    · exact step_ends h.encodes (Bool.not_eq_true _ ▸ hrunning) hguard hended

theorem Inv.run {state : State} (h : Inv state) {actions : List Action}
    (hguard : Guarded Worker.step ClosesEmpty state actions)
    (haccepted : ∀ message ∈ accepted (run Worker.step state actions).2, message.Encodes) :
    Inv (run Worker.step state actions).1 := by
  induction actions generalizing state with
  | nil => exact h
  | cons action actions ih =>
      unfold accepted at haccepted
      rw [run_cons, List.filterMap_append] at haccepted
      obtain ⟨hfirst, hrest⟩ := List.forall_mem_append.mp haccepted
      exact ih (h.step hguard.1 hfirst) hguard.2 hrest

/-- What is handed over for a message are its packets. -/
def Event.Sound : Event → Prop
  | .accepted _           => True
  | .sent message packets => ∃ first second, message.datagrams first second = some packets

theorem flushBinaryPackets_sound (clock : Nat → Nat) (messages : List BinaryUdpMessage) :
    ∀ event ∈ (flushBinaryPackets clock messages).1, event.Sound := by
  induction messages generalizing clock with
  | nil => nofun
  | cons message messages ih =>
      unfold flushBinaryPackets
      cases hdatagrams : message.datagrams (clock 0) (clock 1) with
      | none => nofun
      | some datagrams => exact List.forall_mem_cons.mpr ⟨⟨clock 0, clock 1, hdatagrams⟩, ih _⟩

theorem step_sound (state : State) (action : Action) : ∀ event ∈ (step state action).2, event.Sound := by
  cases action with
  | send message =>
      unfold step
      dsimp only
      split
      · nofun
      · exact List.forall_mem_singleton.mpr trivial
  | close => nofun
  | recv elapsed clock =>
      unfold step
      dsimp only
      split
      · nofun
      · cases state.queue with
        | nil => nofun
        | cons packet queue =>
            dsimp only
            split
            · exact flushBinaryPackets_sound clock _
            · nofun
  | timeout clock =>
      unfold step
      dsimp only
      split
      · nofun
      · exact flushBinaryPackets_sound clock _

theorem run_sound (state : State) (actions : List Action) : ∀ event ∈ (run step state actions).2, event.Sound :=
  run_outputs (fun _ _ (h : True) => h) (fun state action _ => step_sound state action) trivial actions

/-! ## What was handed over -/

/-- The messages can be told from their packets in number only. -/
theorem SentOnce.length {messages : List BinaryUdpMessage} {packets : List (List UInt8)}
    (h : SentOnce messages packets) :
    packets.length = (messages.map BinaryUdpMessage.count).sum ∧
      ∀ message ∈ messages, message.Encodes ∧ message.count ≠ 0 := by
  induction h with
  | nil => exact ⟨rfl, nofun⟩
  | cons hpackets hne hrest ih =>
      have hcount := length_datagrams hpackets
      have hencodes := (datagrams_isSome_iff _ _ _).mp (Option.isSome_of_eq_some hpackets)
      refine ⟨?_, List.forall_mem_cons.mpr ⟨⟨hencodes, ?_⟩, ih.2⟩⟩
      · rw [List.length_append, hcount, ih.1]
        rfl
      · rw [← hcount]
        exact List.length_pos_iff.mpr hne |>.ne'

theorem length_handed {events : List Event} (h : ∀ event ∈ events, event.Sound) :
    (handed events).length = ((sent events).map BinaryUdpMessage.count).sum := by
  induction events with
  | nil => rfl
  | cons event events ih =>
      obtain ⟨hevent, hevents⟩ := List.forall_mem_cons.mp h
      cases event with
      | accepted message => exact ih hevents
      | sent message packets =>
          obtain ⟨first, second, hpackets⟩ := hevent
          show (packets ++ handed events).length = message.count + ((sent events).map BinaryUdpMessage.count).sum
          rw [List.length_append, length_datagrams hpackets, ih hevents]

/-- The messages that were sent are sent once. -/
theorem sentOnce_handed {events : List Event} (h : ∀ event ∈ events, event.Sound)
    (hcount : ∀ message ∈ sent events, message.count ≠ 0) : SentOnce (sent events) (handed events) := by
  induction events with
  | nil => exact .nil
  | cons event events ih =>
      obtain ⟨hevent, hevents⟩ := List.forall_mem_cons.mp h
      cases event with
      | accepted message => exact ih hevents hcount
      | sent message packets =>
          obtain ⟨first, second, hpackets⟩ := hevent
          obtain ⟨hmessage, hmessages⟩ := List.forall_mem_cons.mp hcount
          refine .cons hpackets (fun hnil => hmessage ?_) (ih hevents hmessages)
          rw [← length_datagrams hpackets]
          exact List.length_eq_zero_iff.mpr hnil

/-- **The sender loses nothing**: the datagrams handed to the socket are the packets of the accepted messages, each once
    and in order, exactly when every accepted message can be encoded and has a packet, and the close of the channel
    comes when the buffer is empty. -/
theorem sends_all_accepted_iff (actions : List Action) (hended : (run step .start actions).1.ended = true) :
    SentOnce (accepted (run step .start actions).2) (handed (run step .start actions).2) ↔
      (∀ message ∈ accepted (run step .start actions).2, message.Encodes ∧ message.count ≠ 0) ∧
        Guarded step ClosesEmpty .start actions := by
  have hconserves : sent (run step .start actions).2 ++ (run step .start actions).1.pending =
      accepted (run step .start actions).2 := run_conserves .start actions
  have hsound := run_sound .start actions
  constructor
  · intro hsent
    obtain ⟨hlength, hmessages⟩ := hsent.length
    refine ⟨hmessages, closesEmpty_of_pending_nil ?_⟩
    -- what is still pending would have added to the datagrams
    rw [length_handed hsound, ← hconserves, List.map_append, List.sum_append] at hlength
    by_contra hpending
    obtain ⟨message, hmem⟩ := List.exists_mem_of_ne_nil _ hpending
    have hcount := (hmessages message (hconserves ▸ List.mem_append_right _ hmem)).2
    have hle := List.le_sum_of_mem (List.mem_map_of_mem (f := BinaryUdpMessage.count) hmem)
    omega
  · rintro ⟨haccepted, hguard⟩
    have hpending := (Inv.start.run hguard fun message hmem => (haccepted message hmem).1).ended hended
    rw [hpending, List.append_nil] at hconserves
    rw [← hconserves] at haccepted ⊢
    exact sentOnce_handed hsound fun message hmem => (haccepted message hmem).2

/-! ## A message in the buffer -/

def statsMessage : BinaryUdpMessage := .stats "OKX" 12 34

def bookMessage : BinaryUdpMessage :=
  .orderBook { exchange := "OKX", symbol := "BTC-USDT", assetType := "spot", bids := [(100, 5)], asks := [(101, 6)],
               pricePrecision := 2, quantityPrecision := 2, timestamp := 1700000000000, timestampUnit := .milliseconds }

/-- The messages are flushed by a timeout before the close is received. -/
def flushedInTime : List Action :=
  [.send statsMessage, .recv false fun _ => 0, .send bookMessage, .recv false fun _ => 0, .timeout fun _ => 0, .close,
    .recv false fun _ => 0]

theorem sends_all_accepted_flushedInTime :
    (run step .start flushedInTime).1.ended = true ∧
      SentOnce [statsMessage, bookMessage] (handed (run step .start flushedInTime).2) := by
  have hended : (run step .start flushedInTime).1.ended = true := by decide +kernel
  have haccepted : accepted (run step .start flushedInTime).2 = [statsMessage, bookMessage] := by decide +kernel
  have hencodes : bookMessage.Encodes := fun isBid _ => by cases isBid <;> exact ⟨by decide, fun _ => by decide⟩
  have hguard : Guarded step ClosesEmpty .start flushedInTime := by decide +kernel
  refine ⟨hended, haccepted ▸ (sends_all_accepted_iff flushedInTime hended).mpr ⟨?_, hguard⟩⟩
  rw [haccepted]
  exact List.forall_mem_cons.mpr ⟨⟨trivial, by decide⟩, List.forall_mem_singleton.mpr ⟨hencodes, by decide⟩⟩

/-- Without the timeout the message is lost. -/
def closedAtOnce : List Action :=
  [.send statsMessage, .recv false fun _ => 0, .close, .recv false fun _ => 0]

theorem closedAtOnce_loses :
    (run step .start closedAtOnce).1.ended = true ∧ accepted (run step .start closedAtOnce).2 = [statsMessage] ∧
      handed (run step .start closedAtOnce).2 = [] ∧
      ¬ SentOnce (accepted (run step .start closedAtOnce).2) (handed (run step .start closedAtOnce).2) := by
  have haccepted : accepted (run step .start closedAtOnce).2 = [statsMessage] := by decide +kernel
  have hhanded : handed (run step .start closedAtOnce).2 = [] := by decide +kernel
  refine ⟨by decide +kernel, haccepted, hhanded, fun h => ?_⟩
  rw [haccepted, hhanded] at h
  exact absurd h.length.1 (by decide)

end Worker
end Sender
end TradingPlatform
