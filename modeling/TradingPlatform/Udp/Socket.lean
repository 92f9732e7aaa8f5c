import TradingPlatform.Udp.Receiver

/-!
# `Udp.Socket` — the receive loop of a socket

The task of a socket hands every datagram it receives to `processPacket`. Its buffer is made with a capacity and
never filled, and a datagram is received into the bytes a buffer has, not into those it has room for: the loop
receives nothing of any datagram (`receives_exactly_iff`).
-/

namespace TradingPlatform
namespace Udp

open Market Rust

/-- What a slice of it shows, and the room it has. -/
structure BytesMut where
  bytes    : List UInt8
  capacity : Nat
deriving DecidableEq

namespace BytesMut

def withCapacity (capacity : Nat) : BytesMut := { bytes := [], capacity }

/-- `socket.recv_from(&mut buf)`: at most the length of the buffer is filled, the rest of the datagram is lost. -/
def recvFrom (buf : BytesMut) (datagram : List UInt8) : BytesMut × Nat :=
  let filled := min datagram.length buf.bytes.length
  ({ buf with bytes := datagram.take filled ++ buf.bytes.drop filled }, filled)

/-- An empty buffer stays empty. -/
theorem recvFrom_empty {buf : BytesMut} (h : buf.bytes = []) (datagram : List UInt8) :
    (buf.recvFrom datagram).1.bytes = [] := by
  unfold recvFrom
  rw [h]
  simp only [List.length_nil, Nat.min_zero, List.take_zero, List.drop_nil, List.append_nil]

end BytesMut

namespace UdpReceiver

/-- The variables of the task; a panic ends it. -/
structure Socket where
  buf          : BytesMut
  lastSequence : UInt64
  ended        : Bool
deriving DecidableEq

namespace Socket

def start : Socket := { buf := .withCapacity 65536, lastSequence := 0, ended := false }

/-- One datagram. An error costs the packet; it is only logged. -/
def step (exchange : Exchange) (socket : Socket) (datagram : List UInt8) : Socket × List Message :=
  if socket.ended then (socket, [])
  else
    let (buf, len) := socket.buf.recvFrom datagram
    match processPacket (buf.bytes.take len) exchange socket.lastSequence with
    | (lastSequence, .ok (message, _))  => ({ socket with buf, lastSequence }, [message])
    | (lastSequence, .error .panicked)  => ({ buf, lastSequence, ended := true }, [])
    | (lastSequence, .error _)          => ({ socket with buf, lastSequence }, [])

end Socket

/-- The order-book channel. -/
def orderbooks (messages : List Message) : List OrderBookUpdate :=
  messages.filterMap fun message =>
    match message with
    | .orderbook update => some update
    | .trade _          => none

/-- A datagram: the encoding of an update, of at most 65507 bytes, or one that is no update's encoding. -/
inductive Arrival where
  | valid (orderbook : OrderBookUpdate) (sequence : UInt64) (encodable : Encodable orderbook)
      (fits : (BinaryCodec.encodeOrderbook orderbook sequence).length ≤ 65507)
  | invalid (bytes : List UInt8)
      (noEncoding : ∀ orderbook sequence, Encodable orderbook → bytes ≠ BinaryCodec.encodeOrderbook orderbook sequence)

namespace Arrival

def bytes : Arrival → List UInt8
  | .valid orderbook sequence _ _ => BinaryCodec.encodeOrderbook orderbook sequence
  | .invalid bytes _              => bytes

/-- What the channel should receive for it. -/
def update (exchange : Exchange) : Arrival → Option OrderBookUpdate
  | .valid orderbook _ _ _ => some (received exchange orderbook)
  | .invalid _ _           => none

def isValid : Arrival → Bool
  | .valid _ _ _ _ => true
  | .invalid _ _   => false

end Arrival

/-- The datagrams of a socket, from its start. -/
def receiveAll (exchange : Exchange) (arrivals : List Arrival) : List OrderBookUpdate :=
  orderbooks (Machine.run (Socket.step exchange) .start (arrivals.map Arrival.bytes)).2

/-! ## Nothing is received -/

/-- With an empty buffer every datagram is too small. -/
theorem Socket.step_empty {socket : Socket} (h : socket.buf.bytes = []) (exchange : Exchange)
    (datagram : List UInt8) :
    (socket.step exchange datagram).1.buf.bytes = [] ∧ (socket.step exchange datagram).2 = [] := by
  have hbuf := BytesMut.recvFrom_empty h datagram
  unfold Socket.step
  by_cases hended : socket.ended = true
  · rw [if_pos hended]
    exact ⟨h, rfl⟩
  · rw [if_neg hended]
    dsimp only
    rw [hbuf, List.take_nil]
    exact ⟨hbuf, rfl⟩

theorem receiveAll_nil (exchange : Exchange) (arrivals : List Arrival) : receiveAll exchange arrivals = [] := by
  have hstep : ∀ (socket : Socket) (datagram : List UInt8), socket.buf.bytes = [] →
      (socket.step exchange datagram).1.buf.bytes = [] :=
    fun _ datagram hempty => (Socket.step_empty hempty exchange datagram).1
  have hout : ∀ (socket : Socket) (datagram : List UInt8), socket.buf.bytes = [] →
      ∀ message ∈ (socket.step exchange datagram).2, False := by
    intro socket datagram hempty message hmem
    rw [(Socket.step_empty hempty exchange datagram).2] at hmem
    exact List.not_mem_nil hmem
  have hsilent : ∀ message ∈ (Machine.run (Socket.step exchange) .start (arrivals.map Arrival.bytes)).2, False :=
    Machine.run_outputs hstep hout rfl _
  unfold receiveAll
  rw [List.eq_nil_iff_forall_not_mem.mpr hsilent]
  rfl

/-- **The channel receives the updates of the valid datagrams** exactly when there are none. -/
theorem receives_exactly_iff (exchange : Exchange) (arrivals : List Arrival) :
    receiveAll exchange arrivals = arrivals.filterMap (Arrival.update exchange) ↔
      ∀ arrival ∈ arrivals, arrival.isValid = false := by
  rw [receiveAll_nil, eq_comm, List.filterMap_eq_nil_iff]
  refine forall₂_congr fun arrival _ => ?_
  cases arrival with
  | valid orderbook sequence encodable fits => exact iff_of_false (Option.some_ne_none _) Bool.noConfusion
  | invalid bytes noEncoding => exact iff_of_true rfl rfl

/-- One valid datagram is enough. -/
def sampleArrival : Arrival := .valid sampleUpdate 1 (by decide +kernel) (by decide +kernel)

theorem sampleArrival_not_received :
    receiveAll .okx [sampleArrival] ≠ [sampleArrival].filterMap (Arrival.update .okx) := by
  rw [receiveAll_nil]
  exact (List.cons_ne_nil _ _).symm

end UdpReceiver
end Udp
end TradingPlatform
