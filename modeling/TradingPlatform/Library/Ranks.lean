import Mathlib.Data.List.Sort

/-!
# `Library.Ranks` — the largest of some numbers, and the k-th of them

`largest` and `smallest` of a list, 0 for an empty one; `ranked xs k` is the k-th number in ascending order. The
largest number survives an overwritten place exactly if the number there was not the only largest one, or is replaced
by one at least as large (`largest_set_iff`).
-/

namespace Ranks

variable {xs ys : List Nat} {x y : Nat}

def largest (xs : List Nat) : Nat := xs.max?.getD 0

def smallest (xs : List Nat) : Nat := xs.min?.getD 0

/-! ## Extremes -/

theorem largest_mem (h : xs ≠ []) : largest xs ∈ xs := by
  unfold largest
  cases hmax : xs.max? with
  | none => exact absurd (List.max?_eq_none_iff.mp hmax) h
  | some m => exact List.max?_mem hmax

theorem le_largest (h : x ∈ xs) : x ≤ largest xs := by
  unfold largest
  cases hmax : xs.max? with
  | none =>
      rw [List.max?_eq_none_iff.mp hmax] at h
      cases h
  | some m => exact (List.max?_eq_some_iff.mp hmax).2 x h

theorem largest_le_iff : largest xs ≤ y ↔ ∀ x ∈ xs, x ≤ y := by
  constructor
  · intro h x hx
    exact Nat.le_trans (le_largest hx) h
  · intro h
    by_cases hnil : xs = []
    · rw [hnil]
      exact Nat.zero_le y
    · exact h _ (largest_mem hnil)

theorem smallest_le (h : x ∈ xs) : smallest xs ≤ x := by
  unfold smallest
  cases hmin : xs.min? with
  | none =>
      rw [List.min?_eq_none_iff.mp hmin] at h
      cases h
  | some m => exact (List.min?_eq_some_iff.mp hmin).2 x h

theorem largest_perm (h : xs.Perm ys) : largest xs = largest ys := by
  apply Nat.le_antisymm
  · exact largest_le_iff.mpr fun x hx => le_largest (h.mem_iff.mp hx)
  · exact largest_le_iff.mpr fun x hx => le_largest (h.mem_iff.mpr hx)

theorem largest_concat (xs : List Nat) (x : Nat) : largest (xs ++ [x]) = max (largest xs) x := by
  apply Nat.le_antisymm
  · apply largest_le_iff.mpr
    intro y hy
    rcases List.mem_append.mp hy with hy | hy
    · exact Nat.le_trans (le_largest hy) (Nat.le_max_left ..)
    · rw [List.mem_singleton.mp hy]
      exact Nat.le_max_right ..
  · apply Nat.max_le.mpr
    refine ⟨largest_le_iff.mpr fun y hy => le_largest (List.mem_append_left _ hy), ?_⟩
    exact le_largest (List.mem_append_right _ (List.mem_singleton.mpr rfl))

/-- A number that is left out makes no difference if there is one at least as large. -/
theorem largest_eq_max_iff (h : xs ≠ []) (x : Nat) : largest xs = max (largest xs) x ↔ ∃ y ∈ xs, x ≤ y := by
  constructor
  · intro heq
    have hle : x ≤ largest xs := by
      rw [heq]
      exact Nat.le_max_right ..
    exact ⟨largest xs, largest_mem h, hle⟩
  · rintro ⟨y, hy, hle⟩
    exact (Nat.max_eq_left (Nat.le_trans hle (le_largest hy))).symm

/-- **Overwriting a place** takes nothing off the largest number exactly if the old number there is at most the new
    one, or at most the number in some other place. -/
theorem largest_set_iff {i old : Nat} (hold : xs[i]? = some old) (new : Nat) :
    largest (xs.set i new) = max (largest xs) new ↔ old ≤ new ∨ ∃ other ∈ xs.eraseIdx i, old ≤ other := by
  obtain ⟨hi, -⟩ := List.getElem?_eq_some_iff.mp hold
  have hnew : new ∈ xs.set i new := List.mem_set hi new
  have hkept : ∀ other ∈ xs.eraseIdx i, other ∈ xs.set i new := by
    intro other hother
    obtain ⟨j, hj, hplace⟩ := List.mem_eraseIdx_iff_getElem?.mp hother
    apply List.mem_of_getElem?
    rw [List.getElem?_set_ne (Ne.symm hj), hplace]
  constructor
  · intro heq
    have hle : old ≤ largest (xs.set i new) := by
      rw [heq]
      exact Nat.le_trans (le_largest (List.mem_of_getElem? hold)) (Nat.le_max_left ..)
    -- the largest one now is the new number or one in another place
    obtain ⟨j, hj⟩ := List.mem_iff_getElem?.mp (largest_mem (List.ne_nil_of_mem hnew))
    by_cases hsame : j = i
    · subst hsame
      rw [List.getElem?_set_self hi, Option.some.injEq] at hj
      exact Or.inl (hj ▸ hle)
    · rw [List.getElem?_set_ne (Ne.symm hsame)] at hj
      exact Or.inr ⟨_, List.mem_eraseIdx_iff_getElem?.mpr ⟨j, hsame, hj⟩, hle⟩
  · intro hcovered
    have hold' : old ≤ largest (xs.set i new) := by
      rcases hcovered with hle | ⟨other, hother, hle⟩
      · exact Nat.le_trans hle (le_largest hnew)
      · exact Nat.le_trans hle (le_largest (hkept other hother))
    apply Nat.le_antisymm
    · apply largest_le_iff.mpr
      intro y hy
      rcases List.mem_or_eq_of_mem_set hy with hy | rfl
      · exact Nat.le_trans (le_largest hy) (Nat.le_max_left ..)
      · exact Nat.le_max_right ..
    · refine Nat.max_le.mpr ⟨largest_le_iff.mpr fun y hy => ?_, le_largest hnew⟩
      obtain ⟨j, hj⟩ := List.mem_iff_getElem?.mp hy
      by_cases hsame : j = i
      · subst hsame
        rw [hold, Option.some.injEq] at hj
        exact hj ▸ hold'
      · exact le_largest (hkept y (List.mem_eraseIdx_iff_getElem?.mpr ⟨j, hsame, hj⟩))

/-! ## Ranks -/

def sorted (xs : List Nat) : List Nat := xs.insertionSort (· ≤ ·)

/-- The number in place `k` of the ascending order. -/
def ranked (xs : List Nat) (k : Nat) : Option Nat := (sorted xs)[k]?

theorem sorted_perm (xs : List Nat) : (sorted xs).Perm xs := List.perm_insertionSort _ xs

@[simp] theorem length_sorted (xs : List Nat) : (sorted xs).length = xs.length := List.length_insertionSort _ xs

@[simp] theorem ranked_sorted (xs : List Nat) (k : Nat) : ranked (sorted xs) k = ranked xs k := by
  have hsorted : sorted (sorted xs) = sorted xs := (List.pairwise_insertionSort _ xs).insertionSort_eq
  unfold ranked
  rw [hsorted]

theorem ranked_mem {k v : Nat} (h : ranked xs k = some v) : v ∈ xs :=
  (sorted_perm xs).mem_iff.mp (List.mem_of_getElem? h)

theorem exists_ranked {k : Nat} (h : k < xs.length) : ∃ v, ranked xs k = some v := by
  rw [← length_sorted xs] at h
  exact ⟨_, List.getElem?_eq_getElem h⟩

/-- **Ranks are in order.** -/
theorem ranked_mono {j k v w : Nat} (hjk : j ≤ k) (hv : ranked xs j = some v) (hw : ranked xs k = some w) :
    v ≤ w := by
  obtain ⟨hj, rfl⟩ := List.getElem?_eq_some_iff.mp hv
  obtain ⟨hk, rfl⟩ := List.getElem?_eq_some_iff.mp hw
  rcases Nat.lt_or_eq_of_le hjk with hlt | rfl
  · exact List.pairwise_iff_getElem.mp (List.pairwise_insertionSort _ xs) j k hj hk hlt
  · exact Nat.le_refl _

end Ranks
