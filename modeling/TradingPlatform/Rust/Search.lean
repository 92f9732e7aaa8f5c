import Mathlib.Data.List.InsertIdx

/-!
# `Rust.Search` — binary search in a slice

`slice::binary_search_by` narrows a window `[base, base + size)` down to one element and compares that one
last. On a slice whose elements compare `Less` up to some position and `Greater` from there on, it returns
that position as the place to insert at (`binarySearchBy_of_partitioned`).
-/

namespace TradingPlatform
namespace Rust

variable {α : Type*} {f : α → Ordering} {l : List α}

/-- The comparison of the element at an index (the loop stays within the slice). -/
def compareAt (f : α → Ordering) (l : List α) (i : Nat) : Ordering := (l[i]?.map f).getD .gt

/-- The loop, from a window. Every round halves the window, so the length of the slice is fuel enough. -/
def searchBase (f : α → Ordering) (l : List α) : Nat → Nat → Nat → Nat
  | 0, base, _           => base
  | fuel + 1, base, size =>
      if 1 < size then
        let half := size / 2
        let mid := base + half
        searchBase f l fuel (if compareAt f l mid = .gt then base else mid) (size - half)
      else base

/-- `l.binary_search_by(f)`. -/
def binarySearchBy (f : α → Ordering) (l : List α) : Except Nat Nat :=
  if l.length = 0 then .error 0
  else
    let base := searchBase f l l.length 0 l.length
    match compareAt f l base with
    | .eq => .ok base
    | .lt => .error (base + 1)
    | .gt => .error base

/-- `.unwrap_or_else(|e| e)` -/
def unwrapOrErr : Except Nat Nat → Nat
  | .ok i    => i
  | .error e => e

/-- The first `n` elements compare `Less`, the others `Greater`. -/
structure Partitioned (f : α → Ordering) (l : List α) (n : Nat) : Prop where
  le_length : n ≤ l.length
  below     : ∀ i < n, compareAt f l i = .lt
  above     : ∀ i, n ≤ i → compareAt f l i = .gt

/-- The loop ends at the last element below the partition point, or at the first one if there is none. -/
theorem searchBase_spec {n : Nat} (h : Partitioned f l n) {fuel base size : Nat} (hfuel : size ≤ fuel + 1)
    (hsize : 0 < size) (hbase : base ≤ n) (hn : n ≤ base + size) (hlen : base + size ≤ l.length) :
    searchBase f l fuel base size ≤ n ∧ n ≤ searchBase f l fuel base size + 1 := by
  induction fuel generalizing base size with
  | zero =>
      unfold searchBase
      omega
  | succ fuel ih =>
      unfold searchBase
      by_cases hone : 1 < size
      · rw [if_pos hone]
        by_cases hmid : base + size / 2 < n
        · -- the middle is below the point: the window moves up to it
          have hcmp := h.below _ hmid
          simp only [hcmp, reduceCtorEq, if_false]
          apply ih <;> omega
        · have hcmp := h.above _ (Nat.not_lt.mp hmid)
          simp only [hcmp, if_true]
          apply ih <;> omega
      · rw [if_neg hone]
        omega

/-- **The search finds the partition point.** -/
theorem binarySearchBy_of_partitioned {n : Nat} (h : Partitioned f l n) : binarySearchBy f l = .error n := by
  unfold binarySearchBy
  by_cases hlen : l.length = 0
  · have hn := h.le_length
    rw [if_pos hlen]
    congr 1
    omega
  · rw [if_neg hlen]
    obtain ⟨hle, hge⟩ : searchBase f l l.length 0 l.length ≤ n ∧ n ≤ searchBase f l l.length 0 l.length + 1 :=
      searchBase_spec h (Nat.le_succ _) (Nat.pos_of_ne_zero hlen) (Nat.zero_le n) (by simpa using h.le_length)
        (by simp)
    by_cases hlt : searchBase f l l.length 0 l.length < n
    · simp only [h.below _ hlt]
      congr 1
      omega
    · simp only [h.above _ (Nat.not_lt.mp hlt)]
      congr 1
      omega

/-- Elements that never compare `Equal`, and `Less` only in front of `Greater`, are partitioned. -/
theorem partitioned_takeWhile (hne : ∀ a ∈ l, f a ≠ .eq) (hl : l.Pairwise fun a b => f b = .lt → f a = .lt) :
    Partitioned f l (l.takeWhile fun a => f a = .lt).length := by
  induction l with
  | nil => exact ⟨Nat.le_refl _, by simp, by simp [compareAt]⟩
  | cons a as ih =>
      have has := ih (fun b hb => hne b (List.mem_cons_of_mem _ hb)) (List.pairwise_cons.mp hl).2
      cases ha : f a with
      | eq => exact absurd ha (hne a List.mem_cons_self)
      | lt =>
          simp only [List.takeWhile_cons, ha, decide_true, if_true, List.length_cons]
          refine ⟨Nat.succ_le_succ has.le_length, ?_, ?_⟩
          · intro i hi
            cases i with
            | zero => simp [compareAt, ha]
            | succ i => simpa [compareAt] using has.below i (by omega)
          · intro i hi
            cases i with
            | zero => omega
            | succ i => simpa [compareAt] using has.above i (by omega)
      | gt =>
          -- nothing behind a `Greater` is `Less`
          have hall : ∀ b ∈ as, f b = .gt := by
            intro b hb
            cases hb' : f b with
            | eq => exact absurd hb' (hne b (List.mem_cons_of_mem _ hb))
            | lt => simpa [ha] using (List.pairwise_cons.mp hl).1 b hb hb'
            | gt => rfl
          simp only [List.takeWhile_cons, ha, reduceCtorEq, decide_false, Bool.false_eq_true, if_false,
            List.length_nil]
          refine ⟨Nat.zero_le _, by simp, ?_⟩
          intro i _
          cases i with
          | zero => simp [compareAt, ha]
          | succ i =>
              unfold compareAt
              rw [List.getElem?_cons_succ]
              cases hi : as[i]? with
              | none => rfl
              | some b => simpa using hall b (List.mem_of_getElem? hi)

/-- Inserting where the search says puts the element behind those that compare `Less`. -/
theorem insertIdx_binarySearchBy (hne : ∀ a ∈ l, f a ≠ .eq)
    (hl : l.Pairwise fun a b => f b = .lt → f a = .lt) (a : α) :
    l.insertIdx (unwrapOrErr (binarySearchBy f l)) a
      = l.takeWhile (fun b => f b = .lt) ++ a :: l.dropWhile (fun b => f b = .lt) := by
  rw [binarySearchBy_of_partitioned (partitioned_takeWhile hne hl)]
  show l.insertIdx (l.takeWhile fun b => f b = .lt).length a = _
  clear hne hl
  induction l with
  | nil => rfl
  | cons b bs ih =>
      by_cases hb : f b = .lt
      · simp [hb, ih]
      · simp [hb]

end Rust
end TradingPlatform
