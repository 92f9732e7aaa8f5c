import TradingPlatform.Sender.Ordered

/-!
# `Sender.Reordering` — when the ordering sender lets a packet go

Over a whole run nothing is lost or sent twice, whatever the buffer window, and every tick sends the latest first
(`every_packet_once`). But a packet leaves only at a tick at which all that had come by then, and are no earlier, have
waited for the window (`sent_iff`): later packets hold it up, for good if they keep coming.
-/

namespace TradingPlatform
namespace Sender
namespace Ordered

open Heap Machine

/-! ## What has come, and when the timer ticked -/

def received (events : List Event) : List TimestampedPacket :=
  events.filterMap fun
    | .received packet => some packet
    | .tick _          => none

def ticks (events : List Event) : List Nat :=
  events.filterMap fun
    | .received _ => none
    | .tick now   => some now

theorem received_append (events later : List Event) :
    received (events ++ later) = received events ++ received later := List.filterMap_append

theorem ticks_append (events later : List Event) : ticks (events ++ later) = ticks events ++ ticks later :=
  List.filterMap_append

section Runs

variable {top : List TimestampedPacket → Option TimestampedPacket} {sends : TimestampedPacket → Bool}
  {bufferWindow : Nat}

/-! ## Nothing is lost -/

theorem statsPacketsSent_send (w : Worker) (packets : List TimestampedPacket) :
    (packets.foldl (Worker.send sends) w).statsPacketsSent = w.statsPacketsSent + (packets.filter sends).length := by
  induction packets generalizing w with
  | nil => rfl
  | cons packet packets ih =>
      rw [List.foldl_cons, ih, List.filter_cons]
      unfold Worker.send
      split
      · rw [List.length_cons]
        dsimp only
        omega
      · rfl

/-- A tick takes packets out of the buffer, and sends these. -/
theorem step_tick (w : Worker) (now : Nat) :
    (Ordered.step top sends bufferWindow w (.tick now)).2 =
      (popWhile top (waited bufferWindow now) w.packetBuffer.length w.packetBuffer).1 ∧
    (Ordered.step top sends bufferWindow w (.tick now)).1.packetBuffer =
      (popWhile top (waited bufferWindow now) w.packetBuffer.length w.packetBuffer).2 ∧
    (Ordered.step top sends bufferWindow w (.tick now)).1.statsPacketsSent = w.statsPacketsSent +
      ((popWhile top (waited bufferWindow now) w.packetBuffer.length w.packetBuffer).1.filter sends).length :=
  ⟨rfl, packetBuffer_send _ _, statsPacketsSent_send _ _⟩

/-- What is sent and what is buffered is what has come, and the counter is right. -/
structure Kept (sends : TimestampedPacket → Bool) (w : Worker) (come sent : List TimestampedPacket) : Prop where
  perm  : (sent ++ w.packetBuffer).Perm come
  count : w.statsPacketsSent = (sent.filter sends).length

theorem Kept.step (htop : GivesGreatest top) {w : Worker} {come sent : List TimestampedPacket}
    (h : Kept sends w come sent) (event : Event) :
    Kept sends (Ordered.step top sends bufferWindow w event).1 (come ++ received [event])
      (sent ++ (Ordered.step top sends bufferWindow w event).2) := by
  cases event with
  | received packet =>
      refine ⟨?_, ?_⟩
      · show (sent ++ [] ++ (w.packetBuffer ++ [packet])).Perm (come ++ [packet])
        rw [List.append_nil, ← List.append_assoc]
        exact h.perm.append_right [packet]
      · show w.statsPacketsSent = ((sent ++ []).filter sends).length
        rw [List.append_nil]
        exact h.count
  | tick now =>
      obtain ⟨hsent, hbuffer, hcount⟩ := @step_tick top sends bufferWindow w now
      have hperm := @perm_popWhile _ _ top (waited bufferWindow now) _ _ _ (givesGreatest_iff.mp htop)
        w.packetBuffer.length w.packetBuffer
      refine ⟨?_, ?_⟩
      · rw [hsent, hbuffer, List.append_assoc, show received [.tick now] = [] from rfl, List.append_nil]
        exact (hperm.append_left sent).trans h.perm
      · rw [hcount, hsent, List.filter_append, List.length_append, h.count]

theorem kept_run (htop : GivesGreatest top) (events : List Event) :
    Kept sends (run (Ordered.step top sends bufferWindow) Worker.new events).1 (received events)
      (run (Ordered.step top sends bufferWindow) Worker.new events).2 := by
  induction events using List.reverseRecOn with
  | nil => exact ⟨List.Perm.refl _, rfl⟩
  | append_singleton events event ih =>
      rw [run_append_state, run_append_outputs, received_append, run_cons, run_nil, List.append_nil]
      exact ih.step htop event

/-- **Every packet is handed to the socket once or still buffered**, whatever the window and whichever of the latest the
    heap gives out. The packets of one tick are sent latest first, and the counter counts those that were sent. -/
theorem every_packet_once (htop : GivesGreatest top) (events : List Event) :
    ((run (Ordered.step top sends bufferWindow) Worker.new events).2
      ++ (run (Ordered.step top sends bufferWindow) Worker.new events).1.packetBuffer).Perm (received events) ∧
    (run (Ordered.step top sends bufferWindow) Worker.new events).1.statsPacketsSent
      = ((run (Ordered.step top sends bufferWindow) Worker.new events).2.filter sends).length ∧
    ∀ now, (Ordered.step top sends bufferWindow (run (Ordered.step top sends bufferWindow) Worker.new events).1
      (.tick now)).2.Pairwise fun packet other => other.timestamp ≤ packet.timestamp := by
  have hkept := @kept_run top sends bufferWindow htop events
  exact ⟨hkept.perm, hkept.count, fun now => pairwise_popWhile (givesGreatest_iff.mp htop) _ _⟩

/-- With a window of 100 the packet that came last holds up the other at 1000. -/
theorem every_packet_once_early_late :
    (run (Ordered.step (List.argmax TimestampedPacket.timestamp) (fun _ => true) 100) Worker.new
      [.received early, .received late, .tick 1000]).1.packetBuffer = [early, late] ∧
    ([] ++ [early, late]).Perm (received [.received early, .received late, .tick 1000]) :=
  ⟨rfl, (@every_packet_once _ (fun _ => true) 100 latest_gives [.received early, .received late, .tick 1000]).1⟩

/-! ## When a packet leaves -/

/-- What is buffered has come. -/
theorem received_of_buffered (htop : GivesGreatest top) {events : List Event} {packet : TimestampedPacket}
    (h : packet ∈ (run (Ordered.step top sends bufferWindow) Worker.new events).1.packetBuffer) :
    packet ∈ received events := (kept_run htop events).perm.subset (List.mem_append_right _ h)

/-- What has been sent had waited when it was. -/
theorem waited_of_sent {w : Worker} {events : List Event} {packet : TimestampedPacket}
    (h : packet ∈ (run (Ordered.step top sends bufferWindow) w events).2) :
    ∃ now ∈ ticks events, waited bufferWindow now packet = true := by
  induction events generalizing w with
  | nil => cases h
  | cons event events ih =>
      rcases List.mem_append.mp h with h | h
      · cases event with
        | received other => cases h
        | tick now => exact ⟨now, List.mem_cons_self, (of_mem_popWhile h).1⟩
      · obtain ⟨now, hnow, hwaited⟩ := ih h
        refine ⟨now, ?_, hwaited⟩
        cases event with
        | received other => exact hnow
        | tick first => exact List.mem_cons_of_mem _ hnow

theorem waited_mono {first now : Nat} (h : first ≤ now) {packet : TimestampedPacket}
    (hwaited : waited bufferWindow first packet = true) : waited bufferWindow now packet = true := by
  unfold waited at hwaited ⊢
  have hbound := of_decide_eq_true hwaited
  exact decide_eq_true (by omega)

/-- What has come by a tick and has not waited then is buffered. -/
theorem buffered_of_young (htop : GivesGreatest top) {done : List Event} {now : Nat}
    (hclock : (ticks (done ++ [.tick now])).Pairwise (· ≤ ·)) {packet : TimestampedPacket}
    (hcome : packet ∈ received done) (hyoung : waited bufferWindow now packet = false) :
    packet ∈ (run (Ordered.step top sends bufferWindow) Worker.new done).1.packetBuffer := by
  rcases List.mem_append.mp ((@kept_run top sends bufferWindow htop done).perm.symm.subset hcome) with hsent | hbuffered
  · obtain ⟨first, hfirst, hwaited⟩ := waited_of_sent hsent
    rw [ticks_append, List.pairwise_append] at hclock
    have hlater := hclock.2.2 first hfirst now List.mem_cons_self
    exact absurd (hyoung.symm.trans (waited_mono hlater hwaited)) Bool.false_ne_true
  · exact hbuffered

/-- There has been a tick at which all that had come, and were no earlier than the packet, had waited. -/
def Free (bufferWindow : Nat) (packet : TimestampedPacket) (events : List Event) : Prop :=
  ∃ done now rest, events = done ++ .tick now :: rest ∧ packet ∈ received done ∧
    ∀ other ∈ received done, packet.timestamp ≤ other.timestamp → waited bufferWindow now other = true

theorem sent_of_free (htop : GivesGreatest top) {packet : TimestampedPacket} {events : List Event}
    (h : Free bufferWindow packet events) :
    packet ∈ (run (Ordered.step top sends bufferWindow) Worker.new events).2 := by
  obtain ⟨done, now, rest, rfl, hcome, hwaited⟩ := h
  rw [run_append_outputs, List.mem_append]
  rcases List.mem_append.mp ((@kept_run top sends bufferWindow htop done).perm.symm.subset hcome) with hsent | hbuffered
  · exact Or.inl hsent
  · refine Or.inr (List.mem_append_left _ ?_)
    exact out_of_all (givesGreatest_iff.mp htop) (Nat.le_refl _) hbuffered fun other hother hlater =>
      hwaited other (received_of_buffered htop hother) hlater

/-- A heap that gives out the packet after all that are as late keeps it as long as it is not free. -/
theorem not_sent_of_not_free {packet : TimestampedPacket} {events : List Event}
    (hclock : (ticks events).Pairwise (· ≤ ·)) (h : ¬ Free bufferWindow packet events) :
    packet ∉ (run (Ordered.step (yielding TimestampedPacket.timestamp packet) sends bufferWindow) Worker.new events).2 := by
  have htop : GivesGreatest (yielding TimestampedPacket.timestamp packet) := givesGreatest_iff.mpr greatest_yielding
  induction events using List.reverseRecOn with
  | nil => exact List.not_mem_nil
  | append_singleton events event ih =>
      have hearlier : ¬ Free bufferWindow packet events := by
        rintro ⟨done, now, rest, rfl, hfree⟩
        exact h ⟨done, now, rest ++ [event], by simp, hfree⟩
      have hbefore : (ticks events).Pairwise (· ≤ ·) := by
        rw [ticks_append] at hclock
        exact hclock.sublist (List.sublist_append_left _ _)
      rw [run_append_outputs, run_cons, run_nil, List.append_nil, List.mem_append]
      rintro (hsent | hsent)
      · exact ih hbefore hearlier hsent
      · cases event with
        | received other => cases hsent
        | tick now =>
            have hbuffered := (perm_popWhile greatest_yielding _ _).subset (List.mem_append_left _ hsent)
            have hcome : packet ∈ received events := received_of_buffered htop hbuffered
            -- something as late has come that has not waited, and it is still there
            have hheld : ∃ other ∈ received events, packet.timestamp ≤ other.timestamp ∧
                waited bufferWindow now other = false := by
              by_contra hnone
              refine h ⟨events, now, [], rfl, hcome, fun other hother hlater => ?_⟩
              by_contra hyoung
              exact hnone ⟨other, hother, hlater, by simpa using hyoung⟩
            obtain ⟨other, hother, hlater, hyoung⟩ := hheld
            exact not_out_yielding (buffered_of_young htop hclock hother hyoung) hyoung hlater hsent

/-- **A packet is sent by the end of a run**, whichever of the latest packets the heap gives out, exactly when there was
    a tick after it came at which every packet that had come, and was no earlier, had waited for the window. -/
theorem sent_iff (sends : TimestampedPacket → Bool) (bufferWindow : Nat) (packet : TimestampedPacket)
    (events : List Event) (hclock : (ticks events).Pairwise (· ≤ ·)) :
    (∀ top, GivesGreatest top → packet ∈ (run (Ordered.step top sends bufferWindow) Worker.new events).2) ↔
      Free bufferWindow packet events := by
  refine ⟨fun h => ?_, fun h top htop => sent_of_free htop h⟩
  by_contra hfree
  exact not_sent_of_not_free hclock hfree (h _ (givesGreatest_iff.mpr greatest_yielding))

end Runs

/-- With no window a packet leaves at the next tick. -/
theorem sent_iff_early_late :
    (∀ top, GivesGreatest top →
      early ∈ (run (Ordered.step top (fun _ => true) 0) Worker.new [.received early, .received late, .tick 1000]).2) ↔
      Free 0 early [.received early, .received late, .tick 1000] :=
  sent_iff (fun _ => true) 0 early _ (by simp [ticks])

end Ordered
end Sender
end TradingPlatform
