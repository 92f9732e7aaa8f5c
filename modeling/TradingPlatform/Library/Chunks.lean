import TradingPlatform.Library.Framing

/-!
# `Library.Chunks` — one chunk of a list, by its index

Those who share a list in chunks each cut their own out of it: `chunk size xs i` is the `i`-th, `numChunks` how many
there are. Put together in order they are the list (`flatMap_chunk`), none of them is empty, and only the last may be
short.
-/

namespace Chunks

variable {α : Type*} {size : Nat} {xs : List α} {i : Nat}

/-- The quotient, rounded up. -/
def numChunks (size length : Nat) : Nat := (length + size - 1) / size

def chunk (size : Nat) (xs : List α) (i : Nat) : List α := (xs.drop (i * size)).take size

/-- The chunks that exist are those that start in the list. -/
theorem lt_numChunks_iff (h : 0 < size) {length : Nat} : i < numChunks size length ↔ i * size < length := by
  unfold numChunks
  rw [Nat.lt_div_iff_mul_lt h]
  omega

theorem length_chunk : (chunk size xs i).length = min size (xs.length - i * size) := by
  rw [chunk, List.length_take, List.length_drop]

theorem length_chunk_le : (chunk size xs i).length ≤ size := by
  rw [length_chunk]
  exact Nat.min_le_left ..

theorem length_chunk_pos (h : 0 < size) (hi : i < numChunks size xs.length) : 0 < (chunk size xs i).length := by
  rw [lt_numChunks_iff h] at hi
  rw [length_chunk]
  omega

/-- **All chunks, in order, are the list.** -/
theorem flatMap_chunk (h : 0 < size) (xs : List α) :
    (List.range (numChunks size xs.length)).flatMap (chunk size xs) = xs := Framing.flatten_chunks h xs

end Chunks
