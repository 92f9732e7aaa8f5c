import TradingPlatform.Library.Machine

/-!
# `Library.Framing` — messages in frames, several to a frame or one over several

A sender joins short messages with a separator and cuts a long one into chunks that carry their index and count.
The receiver splits what is no chunk at the separator and holds chunks back until it has a whole run of them
(`receive`). What it makes of a frame of joined messages and of a run of chunks are `receive_joined` and
`run_chunks`.
-/

namespace Framing

open Machine

variable {α : Type*}

/-! ## Chunks -/

/-- `xs.chunks(n)`: pieces of `n`, the last one with what is left. -/
def chunks (n : Nat) (l : List α) : List (List α) :=
  (List.range ((l.length + n - 1) / n)).map fun i => (l.drop (i * n)).take n

theorem length_le_of_mem_chunks {n : Nat} {l c : List α} (h : c ∈ chunks n l) : c.length ≤ n := by
  obtain ⟨i, -, rfl⟩ := List.mem_map.mp h
  exact List.length_take_le n _

theorem length_chunks (n : Nat) (l : List α) : (chunks n l).length = (l.length + n - 1) / n := by
  rw [chunks, List.length_map, List.length_range]

/-- The first `k` pieces are the first `k * n` elements. -/
theorem flatten_pieces (n : Nat) (l : List α) (k : Nat) :
    ((List.range k).map fun i => (l.drop (i * n)).take n).flatten = l.take (k * n) := by
  induction k with
  | zero => rw [Nat.zero_mul]; rfl
  | succ k ih =>
      rw [List.range_succ, List.map_append, List.flatten_append, ih, Nat.succ_mul, List.take_add, List.map_singleton,
        List.flatten_singleton]

/-- **Chunks lose nothing.** -/
theorem flatten_chunks {n : Nat} (hn : 0 < n) (l : List α) : (chunks n l).flatten = l := by
  rw [chunks, flatten_pieces]
  refine List.take_of_length_le ?_
  have hdiv := Nat.div_add_mod (l.length + n - 1) n
  have hmod := Nat.mod_lt (l.length + n - 1) hn
  rw [Nat.mul_comm] at hdiv
  omega

/-! ## The receiver -/

/-- The payloads of a run in the order of their indices, which start at 1. -/
def assemble (run : List (Nat × List α)) : List α :=
  (List.range run.length).flatMap fun i => (run.lookup (i + 1)).getD []

section Receive

variable [DecidableEq α] (separator : α) (readChunk : List α → Option (Nat × Nat × List α))

/-- What a frame gives, with the chunks pending: `readChunk` reads index, count and payload. -/
def receive (pending : List (Nat × List α)) (frame : List α) : List (Nat × List α) × List (List α) :=
  match readChunk frame with
  | none                         => ([], frame.splitOn separator)
  | some (index, count, payload) =>
    let run := pending ++ [(index, payload)]
    if run.length = count then ([], [assemble run]) else (run, [])

variable {separator : α} {readChunk : List α → Option (Nat × Nat × List α)}

/-- **Joined messages come apart again.** -/
theorem receive_joined {messages : List (List α)} (hne : messages ≠ []) (hsep : ∀ m ∈ messages, separator ∉ m)
    (hchunk : readChunk ([separator].intercalate messages) = none) :
    receive separator readChunk [] ([separator].intercalate messages) = ([], messages) := by
  rw [receive, hchunk]
  dsimp only
  rw [List.splitOn_intercalate separator hsep hne]

omit [DecidableEq α] in
theorem lookup_zipIdx (cs : List (List α)) (start i : Nat) :
    ((cs.zipIdx start).map Prod.swap).lookup (start + i) = cs[i]? := by
  induction cs generalizing start i with
  | nil => rfl
  | cons c cs ih =>
      rw [List.zipIdx_cons, List.map_cons]
      cases i with
      | zero => exact List.lookup_cons_self
      | succ i =>
          have hne : (start + (i + 1) == start) = false := beq_eq_false_iff_ne.mpr (by omega)
          have hshift : start + (i + 1) = start + 1 + i := by omega
          show List.lookup _ ((start, c) :: _) = _
          rw [List.lookup_cons, hne, hshift]
          exact ih (start + 1) i

omit [DecidableEq α] in
/-- Chunks numbered from 1 assemble to the whole. -/
theorem assemble_zipIdx (cs : List (List α)) : assemble ((cs.zipIdx 1).map Prod.swap) = cs.flatten := by
  have hpieces : (List.range cs.length).map (fun i => cs[i]?.getD []) = cs := by
    apply List.ext_getElem
    · rw [List.length_map, List.length_range]
    · intro i h₁ h₂
      rw [List.getElem_map, List.getElem_range, List.getElem?_eq_getElem h₂, Option.getD_some]
  rw [assemble, List.length_map, List.length_zipIdx, List.flatMap_def]
  conv_rhs => rw [← hpieces]
  congr 2
  funext i
  rw [Nat.add_comm i 1, lookup_zipIdx]

/-- The rest of a run, after the chunks in `before`. -/
theorem run_chunks_from {frame : Nat → List α → List α} {before rest : List (List α)} (hne : rest ≠ [])
    (hframe : ∀ i c, readChunk (frame i c) = some (i, before.length + rest.length, c)) :
    run (receive separator readChunk) ((before.zipIdx 1).map Prod.swap)
        ((rest.zipIdx (before.length + 1)).map fun (c, i) => frame i c) = ([], [(before ++ rest).flatten]) := by
  induction rest generalizing before with
  | nil => exact absurd rfl hne
  | cons c rest ih =>
      have hpending : (before.zipIdx 1).map Prod.swap ++ [(before.length + 1, c)] =
          ((before ++ [c]).zipIdx 1).map Prod.swap := by
        rw [List.zipIdx_append, List.map_append, List.zipIdx_singleton, Nat.add_comm]
        rfl
      have hstep : receive separator readChunk ((before.zipIdx 1).map Prod.swap) (frame (before.length + 1) c) =
          if rest = [] then ([], [(before ++ [c]).flatten]) else (((before ++ [c]).zipIdx 1).map Prod.swap, []) := by
        rw [receive, hframe]
        dsimp only
        rw [hpending, assemble_zipIdx]
        refine if_congr ?_ rfl rfl
        rw [List.length_map, List.length_zipIdx, List.length_append, List.length_singleton, List.length_cons,
          ← List.length_eq_zero_iff]
        omega
      rw [List.zipIdx_cons, List.map_cons, run_cons, hstep]
      by_cases hrest : rest = []
      · rw [if_pos hrest, hrest]
        rfl
      · rw [if_neg hrest]
        have hlength : before.length + 1 + 1 = (before ++ [c]).length + 1 := by
          rw [List.length_append, List.length_singleton]
        have hframe' : ∀ i c', readChunk (frame i c') = some (i, (before ++ [c]).length + rest.length, c') := by
          intro i c'
          have htotal : (before ++ [c]).length + rest.length = before.length + (c :: rest).length := by
            rw [List.length_append, List.length_singleton, List.length_cons]
            omega
          rw [hframe, htotal]
        have hrun := ih hrest hframe'
        rw [← hlength] at hrun
        dsimp only
        rw [hrun, List.append_assoc]
        rfl

/-- **A run of chunks comes together again.** -/
theorem run_chunks {frame : Nat → List α → List α} {cs : List (List α)} (hne : cs ≠ [])
    (hframe : ∀ i c, readChunk (frame i c) = some (i, cs.length, c)) :
    run (receive separator readChunk) [] ((cs.zipIdx 1).map fun (c, i) => frame i c) = ([], [cs.flatten]) := by
  have hframe' : ∀ i c, readChunk (frame i c) = some (i, ([] : List (List α)).length + cs.length, c) := by
    intro i c
    rw [hframe, List.length_nil, Nat.zero_add]
  exact run_chunks_from hne hframe'

end Receive

end Framing
