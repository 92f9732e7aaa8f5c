import TradingPlatform.Library.Machine
import Mathlib.Algebra.Group.Int.Defs

/-!
# `Logger.QuestDb` — the line buffer of the QuestDB client

Lines wait in a buffer until there are enough of them or enough time has passed; a flush joins them into one datagram.
The buffer is cleared before the send, so the lines of a send that fails are gone (`flush_keeps_lines_iff`). While no
send fails, every line goes out once, in order (`run_sends_lines`).
-/

namespace TradingPlatform
namespace Logger

open Machine

/-- `Error::Connection`, the only one of the client's errors here. -/
inductive QuestDBError where
  | connection (message : String)
deriving DecidableEq, Repr

/-- The client, with the parts of its configuration that it reads here; times are in milliseconds. -/
structure QuestDBClient where
  batchSize       : Nat
  flushIntervalMs : Nat
  buffer          : List (List Char)
  lastFlush       : Int

/-- What the socket says to a datagram: the bytes sent, or the text of its error. -/
abbrev Send := List Char → Except String Nat

/-- The outcome of a call: its result, the client after it, and the datagrams that went out. -/
structure Flushed where
  result : Except QuestDBError Unit
  client : QuestDBClient
  sent   : List (List Char)

namespace QuestDBClient

/-- `buffer.join("\n")` -/
def data (client : QuestDBClient) : List Char := ['\n'].intercalate client.buffer

def flushInternal (client : QuestDBClient) (send : Send) (now : Int) : Flushed :=
  if client.buffer = [] then { result := .ok (), client, sent := [] }
  else
    let cleared := { client with buffer := [] }
    match send client.data with
    | .ok _    => { result := .ok (), client := { cleared with lastFlush := now }, sent := [client.data] }
    | .error e => { result := .error (.connection s!"QuestDB send failed: {e}"), client := cleared, sent := [] }

/-- `(now - last_flush).num_milliseconds() as u64` -/
def elapsed (client : QuestDBClient) (now : Int) : Int := (now - client.lastFlush) % 2 ^ 64

def addToBuffer (client : QuestDBClient) (line : List Char) (send : Send) (now : Int) : Flushed :=
  let pushed := { client with buffer := client.buffer ++ [line] }
  if pushed.buffer.length ≥ pushed.batchSize then pushed.flushInternal send now
  else if pushed.elapsed now ≥ pushed.flushIntervalMs then pushed.flushInternal send now
  else { result := .ok (), client := pushed, sent := [] }

/-! ## One flush -/

/-- The lines that a receiver reads from texts. -/
def linesOf (texts : List (List Char)) : List (List Char) := texts.flatMap (List.splitOn '\n')

@[simp] theorem linesOf_append (texts texts' : List (List Char)) :
    linesOf (texts ++ texts') = linesOf texts ++ linesOf texts' := List.flatMap_append

/-- Joined texts are read as the lines of each. -/
theorem splitOn_intercalate_eq_linesOf {texts : List (List Char)} (h : texts ≠ []) :
    (['\n'].intercalate texts).splitOn '\n' = linesOf texts := by
  induction texts with
  | nil => exact absurd rfl h
  | cons text texts ih =>
      cases texts with
      | nil => simp [linesOf]
      | cons text' texts =>
          rw [List.intercalate_cons_cons, List.append_assoc, List.singleton_append, List.splitOn_append_cons_self,
            ih (List.cons_ne_nil _ _)]
          rfl

/-- All buffered lines went out, each once, and the buffer is empty. -/
def SendsAll (client : QuestDBClient) (flushed : Flushed) : Prop :=
  flushed.result = .ok () ∧ linesOf flushed.sent = linesOf client.buffer ∧ flushed.client.buffer = []

/-- An error, with all buffered lines still in the buffer. -/
def KeepsAll (client : QuestDBClient) (flushed : Flushed) : Prop :=
  (∃ e, flushed.result = .error e) ∧ flushed.client.buffer = client.buffer

theorem sendsAll_of_ok {client : QuestDBClient} {send : Send} {n : Nat} (h : send client.data = .ok n) (now : Int) :
    SendsAll client (client.flushInternal send now) := by
  unfold flushInternal
  split_ifs with hempty
  · exact ⟨rfl, by rw [hempty], hempty⟩
  · rw [h]
    refine ⟨rfl, ?_, rfl⟩
    show linesOf [client.data] = _
    rw [← splitOn_intercalate_eq_linesOf hempty]
    exact List.append_nil _

/-- **A flush keeps or sends the lines** exactly if there are none or the send succeeds. -/
theorem flush_keeps_lines_iff (client : QuestDBClient) (send : Send) (now : Int) :
    (SendsAll client (client.flushInternal send now) ∨ KeepsAll client (client.flushInternal send now)) ↔
      client.buffer = [] ∨ ∃ n, send client.data = .ok n := by
  constructor
  · intro h
    by_cases hempty : client.buffer = []
    · exact .inl hempty
    · cases hsend : send client.data with
      | ok n => exact .inr ⟨n, rfl⟩
      | error e =>
          -- the buffer is cleared, and the result an error
          unfold flushInternal at h
          rw [if_neg hempty, hsend] at h
          rcases h with ⟨hok, -⟩ | ⟨-, hkept⟩
          · cases hok
          · exact absurd hkept.symm hempty
  · rintro (hempty | ⟨n, hsend⟩)
    · left
      unfold flushInternal
      rw [if_pos hempty]
      exact ⟨rfl, by rw [hempty], hempty⟩
    · exact .inl (sendsAll_of_ok hsend now)

/-- A line and a socket that takes no datagram: an error, and the line is gone. -/
theorem flush_loses_line :
    let client : QuestDBClient := { batchSize := 1000, flushIntervalMs := 100, buffer := ["a b=1".toList], lastFlush := 0 }
    let flushed := client.flushInternal (fun _ => .error "Message too long (os error 90)") 0
    flushed.result = .error (.connection "QuestDB send failed: Message too long (os error 90)") ∧
      flushed.sent = [] ∧ flushed.client.buffer = [] ∧ ¬ (SendsAll client flushed ∨ KeepsAll client flushed) := by
  refine ⟨rfl, rfl, rfl, ?_⟩
  rintro (⟨hok, -⟩ | ⟨-, hkept⟩)
  · cases hok
  · cases hkept

/-! ## Runs -/

inductive Call where
  | writeIlpLine (line : List Char) (send : Send) (now : Int)
  | flush (send : Send) (now : Int)

def call (client : QuestDBClient) : Call → Flushed
  | .writeIlpLine line send now => client.addToBuffer line send now
  | .flush send now             => client.flushInternal send now

def step (client : QuestDBClient) (c : Call) : QuestDBClient × List (List Char) :=
  ((client.call c).client, (client.call c).sent)

/-- What a call adds to the lines. -/
def Call.added : Call → List (List Char)
  | .writeIlpLine line _ _ => [line]
  | .flush _ _             => []

/-- One call that returns `Ok` neither loses nor repeats a line. -/
theorem lines_call {client : QuestDBClient} {c : Call} (h : (client.call c).result = .ok ()) :
    linesOf (client.call c).sent ++ linesOf (client.call c).client.buffer
      = linesOf client.buffer ++ linesOf c.added := by
  have hflush : ∀ {client : QuestDBClient} {send : Send} {now : Int},
      (client.flushInternal send now).result = .ok () →
        linesOf (client.flushInternal send now).sent ++ linesOf (client.flushInternal send now).client.buffer
          = linesOf client.buffer := by
    intro client send now hok
    have hall : SendsAll client (client.flushInternal send now) := by
      cases hsend : send client.data with
      | ok n => exact sendsAll_of_ok hsend now
      | error e =>
          unfold flushInternal at hok ⊢
          split_ifs at hok ⊢ with hempty
          · exact ⟨rfl, by rw [hempty], hempty⟩
          · rw [hsend] at hok
            cases hok
    obtain ⟨-, hsent, hclear⟩ := hall
    rw [hsent, hclear]
    exact List.append_nil _
  cases c with
  | flush send now =>
      rw [show linesOf (Call.flush send now).added = [] from rfl, List.append_nil]
      exact hflush h
  | writeIlpLine line send now =>
      have hpushed : linesOf client.buffer ++ linesOf (Call.writeIlpLine line send now).added
          = linesOf (client.buffer ++ [line]) := (linesOf_append _ _).symm
      rw [hpushed]
      unfold call addToBuffer at h ⊢
      dsimp only at h ⊢
      split_ifs at h ⊢
      · exact hflush h
      · exact hflush h
      · rfl

/-- **While every call returns `Ok`, every line goes out once and in order**, or is still in the buffer. -/
theorem run_sends_lines {client : QuestDBClient} {calls : List Call}
    (h : Guarded step (fun client c => (client.call c).result = .ok ()) client calls) :
    linesOf (run step client calls).2 ++ linesOf (run step client calls).1.buffer
      = linesOf client.buffer ++ linesOf (calls.flatMap Call.added) := by
  induction calls generalizing client with
  | nil => exact (List.append_nil _).symm
  | cons c calls ih =>
      obtain ⟨hc, hcalls⟩ := h
      have hone := lines_call hc
      rw [run_cons, linesOf_append, List.append_assoc, ih hcalls, List.flatMap_cons, linesOf_append, ← List.append_assoc]
      show linesOf (client.call c).sent ++ linesOf (client.call c).client.buffer ++ _ = _
      rw [hone, List.append_assoc]

end QuestDBClient

end Logger
end TradingPlatform
