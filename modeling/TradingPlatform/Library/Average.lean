import Mathlib.Algebra.BigOperators.Group.List.Basic
import Mathlib.Algebra.Order.Field.Rat
import Mathlib.Tactic.FieldSimp
import Mathlib.Tactic.Linarith
import Mathlib.Tactic.Ring

/-!
# `Library.Average` — an average that is halved with every value

`halved` keeps one number and no count: each value is averaged with what was there, and the first one with 0. The
values come to count twice as much as the one before them (`halved_eq`), so this is the mean only if they happen to
balance (`halved_eq_mean_iff`), and of equal values only if they are 0 (`balanced_replicate_iff`).
-/

namespace Average

/-- What was there, averaged with each value in turn. -/
def halved (xs : List ℚ) : Option ℚ := xs.foldl (fun average x => some ((average.getD 0 + x) / 2)) none

/-- The arithmetic mean, of at least one value. -/
def mean (xs : List ℚ) : Option ℚ := if xs = [] then none else some (xs.sum / xs.length)

/-- The sum, with twice the weight from each value to the next. -/
def doubling : List ℚ → ℚ
  | []      => 0
  | x :: xs => x + 2 * doubling xs

/-- The weights of the values make no difference. -/
def Balanced (xs : List ℚ) : Prop := xs.length * doubling xs = 2 ^ xs.length * xs.sum

instance (xs : List ℚ) : Decidable (Balanced xs) := inferInstanceAs (Decidable (_ = _))

theorem halved_concat (xs : List ℚ) (x : ℚ) : halved (xs ++ [x]) = some (((halved xs).getD 0 + x) / 2) :=
  List.foldl_concat ..

theorem foldl_halved (average : ℚ) (xs : List ℚ) :
    xs.foldl (fun average x => some ((average.getD 0 + x) / 2)) (some average) =
      some ((average + doubling xs) / 2 ^ xs.length) := by
  induction xs generalizing average with
  | nil =>
      rw [List.foldl_nil, doubling, add_zero, List.length_nil, pow_zero, div_one]
  | cons x xs ih =>
      rw [List.foldl_cons, Option.getD_some, ih, doubling, List.length_cons, pow_succ]
      congr 1
      field_simp
      ring

/-- Each value counts twice as much as the one before it. -/
theorem halved_eq {xs : List ℚ} (h : xs ≠ []) : halved xs = some (doubling xs / 2 ^ xs.length) := by
  cases xs with
  | nil => exact absurd rfl h
  | cons x xs =>
      have hfirst : halved (x :: xs) = xs.foldl (fun average x => some ((average.getD 0 + x) / 2))
          (some ((0 + x) / 2)) := rfl
      rw [hfirst, foldl_halved, doubling, List.length_cons, pow_succ]
      congr 1
      field_simp
      ring

/-- **When it is the mean.** -/
theorem halved_eq_mean_iff (xs : List ℚ) : halved xs = mean xs ↔ Balanced xs := by
  by_cases hnil : xs = []
  · subst hnil
    exact iff_of_true rfl (by decide +kernel)
  · have hlength : (xs.length : ℚ) ≠ 0 := by
      exact_mod_cast fun h => hnil (List.length_eq_zero_iff.mp h)
    have hpow : (2 : ℚ) ^ xs.length ≠ 0 := pow_ne_zero _ (by norm_num)
    rw [halved_eq hnil, mean, if_neg hnil, Option.some.injEq, div_eq_div_iff hpow hlength]
    unfold Balanced
    rw [mul_comm (doubling xs), mul_comm xs.sum]

theorem doubling_replicate (n : Nat) (c : ℚ) : doubling (List.replicate n c) = (2 ^ n - 1) * c := by
  induction n with
  | zero => rw [List.replicate_zero, doubling, pow_zero, sub_self, zero_mul]
  | succ n ih =>
      rw [List.replicate_succ, doubling, ih, pow_succ]
      ring

/-- Equal values balance only if they are 0. -/
theorem balanced_replicate_iff (n : Nat) (c : ℚ) : Balanced (List.replicate n c) ↔ n = 0 ∨ c = 0 := by
  have hsum : (List.replicate n c).sum = n * c := by
    rw [List.sum_replicate, nsmul_eq_mul]
  unfold Balanced
  rw [doubling_replicate, hsum, List.length_replicate]
  constructor
  · intro h
    have hproduct : (n : ℚ) * c = 0 := by linarith
    rcases mul_eq_zero.mp hproduct with hn | hc
    · exact Or.inl (by exact_mod_cast hn)
    · exact Or.inr hc
  · rintro (rfl | rfl)
    · simp
    · simp

end Average
