import TradingPlatform.Library.Rounding
import Mathlib.Algebra.BigOperators.Group.List.Basic
import Mathlib.Algebra.Order.BigOperators.Group.List
import Mathlib.Data.List.Permutation

/-!
# `Library.Summation` — sums that are rounded term by term

What an accumulator holds when the sum is rounded after every term. Rounding is monotone, so that a sum of terms that
are not negative never falls below where it started, and a term that is smaller never makes it larger. The order of
the terms matters: `SumsWithin` asks for a bound in all orders, and what keeps it are the rules for adding one of the
terms, or less, first (`SumsWithin.add`), for starting lower (`SumsWithin.lower`) and for leaving terms out
(`SumsWithin.drop`). Against the exact sum, every term costs one rounding at most (`accumulate_le_sum`).
-/

namespace Rounding

/-- The terms are added one after the other, each sum is rounded. -/
def accumulate (round : ℚ → ℚ) (start : ℚ) (terms : List ℚ) : ℚ := terms.foldl (fun sum x => round (sum + x)) start

theorem accumulate_append (round : ℚ → ℚ) (start : ℚ) (terms more : List ℚ) :
    accumulate round start (terms ++ more) = accumulate round (accumulate round start terms) more :=
  List.foldl_append

/-- Without rounding it is the sum. -/
@[simp] theorem accumulate_id (start : ℚ) (terms : List ℚ) : accumulate id start terms = start + terms.sum := by
  induction terms generalizing start with
  | nil => simp [accumulate]
  | cons x terms ih =>
      show accumulate id (start + x) terms = _
      rw [ih, List.sum_cons, add_assoc]

namespace Format

variable {format : Format} {start bound x y : ℚ} {terms rest : List ℚ}

theorem accumulate_mono (h : x ≤ start) (terms : List ℚ) :
    accumulate format.round x terms ≤ accumulate format.round start terms := by
  induction terms generalizing x start with
  | nil => exact h
  | cons y terms ih =>
      apply ih
      apply round_mono
      linarith

theorem representable_accumulate (h : format.Representable start) (terms : List ℚ) :
    format.Representable (accumulate format.round start terms) := by
  induction terms generalizing start with
  | nil => exact h
  | cons x terms ih => exact ih (representable_round _)

/-- **Terms that are not negative** do not take the sum below a start that is a number of the format. -/
theorem le_accumulate (h : format.Representable start) (hterms : ∀ x ∈ terms, 0 ≤ x) :
    start ≤ accumulate format.round start terms := by
  induction terms generalizing start with
  | nil => exact le_rfl
  | cons x terms ih =>
      obtain ⟨hx, hrest⟩ := List.forall_mem_cons.mp hterms
      have hfirst : start ≤ format.round (start + x) := by
        rw [← round_eq_self h]
        apply round_mono
        rw [round_eq_self h]
        linarith
      exact hfirst.trans (ih (representable_round _) hrest)

/-- **Every term costs one rounding**, as long as the bound is large enough for all of them. -/
theorem accumulate_le_sum (hbound : 0 ≤ bound) (hstart : 0 ≤ start) (hterms : ∀ x ∈ terms, 0 ≤ x)
    (h : start + terms.sum + terms.length * format.slack bound ≤ bound) :
    accumulate format.round start terms ≤ start + terms.sum + terms.length * format.slack bound := by
  induction terms generalizing start with
  | nil =>
      show start ≤ _
      simp
  | cons x terms ih =>
      obtain ⟨hx, hrest⟩ := List.forall_mem_cons.mp hterms
      rw [List.sum_cons, List.length_cons, Nat.cast_add, Nat.cast_one] at h ⊢
      have hsum : 0 ≤ terms.sum := List.sum_nonneg hrest
      have hslack := @slack_nonneg format _ hbound
      have hlength : 0 ≤ (terms.length : ℚ) * format.slack bound := mul_nonneg (Nat.cast_nonneg _) hslack
      -- the first sum is within the bound, so that its rounding is too small to matter for the rest
      have hle : |start + x| ≤ bound := by
        rw [abs_of_nonneg (add_nonneg hstart hx)]
        linarith
      have hfirst := @round_le_add_slack format _ _ hle
      have hnext := ih (round_nonneg (add_nonneg hstart hx)) hrest (by linarith)
      show accumulate format.round (format.round (start + x)) terms ≤ _
      linarith

/-! ## In any order -/

/-- Whatever the order of the terms, their sum is within the bound. -/
def SumsWithin (format : Format) (start bound : ℚ) (terms : List ℚ) : Prop :=
  ∀ order, order.Perm terms → accumulate format.round start order ≤ bound

instance (format : Format) (start bound : ℚ) (terms : List ℚ) : Decidable (format.SumsWithin start bound terms) :=
  decidable_of_iff (∀ order ∈ terms.permutations', accumulate format.round start order ≤ bound)
    (forall_congr' fun _ => imp_congr_left List.mem_permutations')

namespace SumsWithin

theorem perm (h : format.SumsWithin start bound terms) (hperm : terms.Perm rest) :
    format.SumsWithin start bound rest :=
  fun order horder => h order (horder.trans hperm.symm)

theorem lower (h : format.SumsWithin start bound terms) (hle : x ≤ start) : format.SumsWithin x bound terms :=
  fun order horder => (accumulate_mono hle order).trans (h order horder)

/-- **Adding** one of the terms first, or less than it. -/
theorem add (h : format.SumsWithin start bound (x :: terms)) (hle : y ≤ x) :
    format.SumsWithin (format.round (start + y)) bound terms := by
  intro order horder
  have hmono : format.round (start + y) ≤ format.round (start + x) := round_mono (by linarith)
  calc accumulate format.round (format.round (start + y)) order
      ≤ accumulate format.round (format.round (start + x)) order := accumulate_mono hmono order
    _ = accumulate format.round start (x :: order) := rfl
    _ ≤ bound := h _ (horder.cons x)

/-- **Leaving out** terms that are not negative. -/
theorem drop (h : format.SumsWithin start bound (terms ++ rest)) (hstart : format.Representable start)
    (hrest : ∀ x ∈ rest, 0 ≤ x) : format.SumsWithin start bound terms := by
  intro order horder
  -- what is left out is taken to come last
  calc accumulate format.round start order
      ≤ accumulate format.round (accumulate format.round start order) rest :=
        le_accumulate (representable_accumulate hstart order) hrest
    _ = accumulate format.round start (order ++ rest) := (accumulate_append ..).symm
    _ ≤ bound := h _ (horder.append_right rest)

theorem start_le (h : format.SumsWithin start bound terms) (hstart : format.Representable start)
    (hterms : ∀ x ∈ terms, 0 ≤ x) : start ≤ bound :=
  (h.drop hstart hterms : format.SumsWithin start bound []) [] (List.Perm.refl [])

end SumsWithin

end Format
end Rounding
