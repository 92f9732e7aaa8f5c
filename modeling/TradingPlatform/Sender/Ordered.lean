import TradingPlatform.Library.Heap
import TradingPlatform.Library.Machine

/-!
# `Sender.Ordered` — the sender that orders packets by timestamp

The worker keeps what it receives in a heap and empties the heap at the ticks of a timer, as far as the packets have
waited for the buffer window. The order of the packets is reversed for a heap that gives out the earliest, and the
packets are wrapped in `Reverse` besides: the heap gives out the latest (`givesGreatest_iff`). So a tick sends the
packets latest first, and one that is too young holds up all that are earlier (`oldest_first_iff`).
-/

namespace TradingPlatform
namespace Sender
namespace Ordered

open Heap Machine

/-! ## Packets and their order -/

/-- Packets with timestamp for ordering; `createdAt` is an instant of the local clock. -/
structure TimestampedPacket where
  timestamp  : Nat
  packetType : String
  data       : List UInt8
  createdAt  : Nat
deriving DecidableEq

/-- Reverse ordering for min-heap. -/
def TimestampedPacket.cmp (packet other : TimestampedPacket) : Ordering := compare other.timestamp packet.timestamp

/-- The order of `Reverse(packet)`. -/
def reverseCmp (packet other : TimestampedPacket) : Ordering := other.cmp packet

/-- `peek` and `pop` of a `BinaryHeap<Reverse<TimestampedPacket>>`: a greatest packet, any of them. -/
def GivesGreatest (top : List TimestampedPacket → Option TimestampedPacket) : Prop :=
  ∀ buffer, (top buffer = none ↔ buffer = []) ∧ ∀ packet, top buffer = some packet →
    packet ∈ buffer ∧ ∀ other ∈ buffer, reverseCmp packet other ≠ .lt

/-- Reversed twice, the greatest is the latest. -/
theorem givesGreatest_iff {top : List TimestampedPacket → Option TimestampedPacket} :
    GivesGreatest top ↔ Greatest TimestampedPacket.timestamp top := by
  have hcmp : ∀ packet other, reverseCmp packet other ≠ .lt ↔ other.timestamp ≤ packet.timestamp := fun _ _ =>
    Nat.compare_ne_lt
  unfold GivesGreatest Greatest
  simp only [hcmp]

/-! ## The worker -/

def defaultBufferWindowMs : Nat := 0

structure Worker where
  packetBuffer          : List TimestampedPacket
  statsPacketsReordered : Nat
  lastSentTimestamp     : Nat
  statsPacketsSent      : Nat

def Worker.new : Worker :=
  { packetBuffer := [], statsPacketsReordered := 0, lastSentTimestamp := 0, statsPacketsSent := 0 }

/-- What the worker waits for. The timer never stops, so a closed channel does not end the loop. -/
inductive Event where
  | received (packet : TimestampedPacket)
  | tick (now : Nat)

variable (top : List TimestampedPacket → Option TimestampedPacket) (sends : TimestampedPacket → Bool)
  (bufferWindow : Nat)

/-- The packet has been buffered long enough. -/
def waited (now : Nat) (packet : TimestampedPacket) : Bool := decide (bufferWindow ≤ now - packet.createdAt)

/-- One packet is sent, or sending it fails. -/
def Worker.send (w : Worker) (packet : TimestampedPacket) : Worker :=
  if sends packet then { w with lastSentTimestamp := packet.timestamp, statsPacketsSent := w.statsPacketsSent + 1 }
  else w

/-- The outputs are the packets handed to the socket. The loop stops at the first packet that is too recent. -/
def step (w : Worker) : Event → Worker × List TimestampedPacket
  | .received packet =>
    ({ w with
        packetBuffer          := w.packetBuffer ++ [packet]
        statsPacketsReordered := w.statsPacketsReordered + if packet.timestamp < w.lastSentTimestamp then 1 else 0 },
      [])
  | .tick now =>
    let (packetsToSend, packetBuffer) :=
      popWhile top (waited bufferWindow now) w.packetBuffer.length w.packetBuffer
    (packetsToSend.foldl (Worker.send sends) { w with packetBuffer }, packetsToSend)

variable {top sends bufferWindow}

theorem packetBuffer_send (w : Worker) (packets : List TimestampedPacket) :
    (packets.foldl (Worker.send sends) w).packetBuffer = w.packetBuffer := by
  induction packets generalizing w with
  | nil => rfl
  | cons packet packets ih =>
      rw [List.foldl_cons, ih]
      unfold Worker.send
      split
      · rfl
      · rfl

/-- What is received is buffered. -/
theorem run_received (w : Worker) (packets : List TimestampedPacket) :
    (run (step top sends bufferWindow) w (packets.map .received)).1.packetBuffer = w.packetBuffer ++ packets ∧
    (run (step top sends bufferWindow) w (packets.map .received)).2 = [] := by
  induction packets generalizing w with
  | nil => exact ⟨(List.append_nil _).symm, rfl⟩
  | cons packet packets ih =>
      obtain ⟨hbuffer, hout⟩ := ih (step top sends bufferWindow w (.received packet)).1
      rw [List.map_cons, run_cons]
      refine ⟨hbuffer.trans ?_, hout⟩
      show w.packetBuffer ++ [packet] ++ packets = _
      rw [List.append_assoc, List.singleton_append]

/-- What the tick after them sends and leaves. -/
theorem run_tick (w : Worker) (packets : List TimestampedPacket) (now : Nat) :
    (run (step top sends bufferWindow) w (packets.map .received ++ [.tick now])).2 =
      (popWhile top (waited bufferWindow now) (w.packetBuffer ++ packets).length (w.packetBuffer ++ packets)).1 ∧
    (run (step top sends bufferWindow) w (packets.map .received ++ [.tick now])).1.packetBuffer =
      (popWhile top (waited bufferWindow now) (w.packetBuffer ++ packets).length (w.packetBuffer ++ packets)).2 := by
  obtain ⟨hbuffer, hout⟩ := @run_received top sends bufferWindow w packets
  rw [run_append_outputs, run_append_state, hout, ← hbuffer]
  exact ⟨List.append_nil _, packetBuffer_send _ _⟩

/-! ## Oldest first -/

/-- What a tick should do: with no window it sends all that is buffered, each once and the earliest first; with any
    window it leaves nothing that has waited as long. -/
structure OldestFirst (bufferWindow now : Nat) (buffered sent left : List TimestampedPacket) : Prop where
  all     : bufferWindow = 0 → sent.Perm buffered
  ordered : bufferWindow = 0 → sent.Pairwise fun packet other => packet.timestamp ≤ other.timestamp
  due     : ∀ packet ∈ left, waited bufferWindow now packet = false

/-- With no window every packet has waited. -/
theorem waited_zero (now : Nat) (packet : TimestampedPacket) : waited 0 now packet = true :=
  decide_eq_true (Nat.zero_le _)

theorem latest_gives : GivesGreatest (List.argmax TimestampedPacket.timestamp) :=
  givesGreatest_iff.mpr fun _ =>
    ⟨List.argmax_eq_none, fun _ hp => ⟨List.argmax_mem hp, fun _ hother => List.le_of_mem_argmax hother hp⟩⟩

/-- What descends and ascends is all the same. -/
theorem eq_of_pairwise {packets : List TimestampedPacket}
    (hdescends : packets.Pairwise fun packet other => other.timestamp ≤ packet.timestamp)
    (hascends : packets.Pairwise fun packet other => packet.timestamp ≤ other.timestamp) :
    ∀ packet ∈ packets, ∀ other ∈ packets, packet.timestamp = other.timestamp := by
  have hsame : packets.Pairwise fun packet other => packet.timestamp = other.timestamp :=
    (hdescends.and hascends).imp fun h => Nat.le_antisymm h.2 h.1
  have hflip : packets.Pairwise (flip fun packet other => packet.timestamp = other.timestamp) := hsame.imp Eq.symm
  intro packet hpacket other hother
  refine List.Pairwise.forall_of_forall_of_flip ?_ hsame hflip hpacket hother
  exact fun _ _ => rfl

/-- **Oldest first**, whichever of the latest packets the heap gives out, exactly when with no window all that is
    buffered has one timestamp, and no packet is too young that is as late as one that has waited. -/
theorem oldest_first_iff (sends : TimestampedPacket → Bool) (bufferWindow now : Nat) (w : Worker)
    (packets : List TimestampedPacket) :
    (∀ top, GivesGreatest top → OldestFirst bufferWindow now (w.packetBuffer ++ packets)
        (run (step top sends bufferWindow) w (packets.map .received ++ [.tick now])).2
        (run (step top sends bufferWindow) w (packets.map .received ++ [.tick now])).1.packetBuffer) ↔
      (bufferWindow = 0 → ∀ packet ∈ w.packetBuffer ++ packets, ∀ other ∈ w.packetBuffer ++ packets,
        packet.timestamp = other.timestamp) ∧
      ∀ young ∈ w.packetBuffer ++ packets, waited bufferWindow now young = false →
        ∀ old ∈ w.packetBuffer ++ packets, waited bufferWindow now old = true → young.timestamp < old.timestamp := by
  rw [← all_out_iff (Nat.le_refl (w.packetBuffer ++ packets).length)]
  constructor
  · intro h
    refine ⟨?_, fun top htop => ?_⟩
    · rintro rfl
      have hfirst := h _ latest_gives
      have hperm := hfirst.all rfl
      have hordered := hfirst.ordered rfl
      rw [(run_tick w packets now).1] at hperm hordered
      intro packet hpacket other hother
      refine eq_of_pairwise ?_ hordered packet (hperm.symm.subset hpacket) other (hperm.symm.subset hother)
      exact pairwise_popWhile (givesGreatest_iff.mp latest_gives) _ _
    · have hdue := (h top (givesGreatest_iff.mpr htop)).due
      rwa [(run_tick w packets now).2] at hdue
  · rintro ⟨hsame, hdue⟩ top htop
    have hgreatest := givesGreatest_iff.mp htop
    obtain ⟨hsent, hbuffer⟩ := @run_tick top sends bufferWindow w packets now
    rw [hsent, hbuffer]
    have hperm := @perm_popWhile _ _ top (waited bufferWindow now) _ _ _ hgreatest (w.packetBuffer ++ packets).length
      (w.packetBuffer ++ packets)
    refine ⟨?_, ?_, hdue top hgreatest⟩
    · rintro rfl
      have hnil : (popWhile top (waited 0 now) (w.packetBuffer ++ packets).length
          (w.packetBuffer ++ packets)).2 = [] := by
        refine List.eq_nil_iff_forall_not_mem.mpr fun packet hpacket => ?_
        have hwaited := hdue top hgreatest packet hpacket
        rw [waited_zero] at hwaited
        cases hwaited
      rw [hnil, List.append_nil] at hperm
      exact hperm
    · intro hzero
      refine List.pairwise_of_forall_mem_list fun packet hpacket other hother => ?_
      exact Nat.le_of_eq (hsame hzero packet (hperm.subset (List.mem_append_left _ hpacket)) other
        (hperm.subset (List.mem_append_left _ hother)))

/-- Two packets in the order of their timestamps; the second is created when the first has waited. -/
def early : TimestampedPacket := { timestamp := 1, packetType := "TRADE", data := [], createdAt := 0 }

def late : TimestampedPacket := { timestamp := 2, packetType := "TRADE", data := [], createdAt := 950 }

/-- With no window they are sent latest first. With a window of 100 nothing is sent at 1000. -/
theorem not_oldest_first :
    ¬ OldestFirst defaultBufferWindowMs 1000 [early, late]
      (run (step (List.argmax TimestampedPacket.timestamp) (fun _ => true) defaultBufferWindowMs) Worker.new
        ([early, late].map .received ++ [.tick 1000])).2
      (run (step (List.argmax TimestampedPacket.timestamp) (fun _ => true) defaultBufferWindowMs) Worker.new
        ([early, late].map .received ++ [.tick 1000])).1.packetBuffer ∧
    ¬ OldestFirst 100 1000 [early, late]
      (run (step (List.argmax TimestampedPacket.timestamp) (fun _ => true) 100) Worker.new
        ([early, late].map .received ++ [.tick 1000])).2
      (run (step (List.argmax TimestampedPacket.timestamp) (fun _ => true) 100) Worker.new
        ([early, late].map .received ++ [.tick 1000])).1.packetBuffer := by
  refine ⟨fun h => ?_, fun h => ?_⟩
  · have hordered := h.ordered rfl
    revert hordered
    decide +kernel
  · have hdue := h.due early
    revert hdue
    decide +kernel

end Ordered
end Sender
end TradingPlatform
