import TradingPlatform.Rust.Bytes
import TradingPlatform.Rust.Float
import Mathlib.Tactic.Linarith

/-!
# `Rust.Overflow` — integer arithmetic in both build profiles

The development profile of the workspace checks arithmetic: what overflows panics. The release profile does not,
and wraps. What panics is `none`.
-/

namespace TradingPlatform
namespace Rust

inductive Profile where
  | dev
  | release
deriving DecidableEq

/-- The result of an `i64` operation whose exact value is `n`. -/
def Profile.i64 : Profile → Int → Option Int
  | .dev, n     => if InI64 n then some n else none
  | .release, n => some (u64AsI64 (i64AsU64 n))

/-- The result of an unsigned operation on `bits` bits whose exact value is `n`. -/
def Profile.unsigned (bits : Nat) : Profile → Nat → Option Nat
  | .dev, n     => if n < 2 ^ bits then some n else none
  | .release, n => some (n % 2 ^ bits)

/-- In range, both profiles compute the exact value. -/
theorem Profile.i64_eq {n : Int} (h : InI64 n) (profile : Profile) : profile.i64 n = some n := by
  cases profile with
  | dev => exact if_pos h
  | release =>
      refine congrArg some ?_
      unfold InI64 at h
      unfold u64AsI64 i64AsU64
      split <;> omega

theorem Profile.unsigned_eq {bits n : Nat} (h : n < 2 ^ bits) (profile : Profile) :
    profile.unsigned bits n = some n := by
  cases profile with
  | dev => exact if_pos h
  | release => exact congrArg some (Nat.mod_eq_of_lt h)

/-- The development profile computes nothing but exact values. -/
theorem Profile.dev_i64 {n m : Int} : Profile.dev.i64 n = some m ↔ InI64 n ∧ n = m := by
  show (if InI64 n then some n else none) = some m ↔ _
  by_cases h : InI64 n
  · rw [if_pos h]
    exact ⟨fun heq => ⟨h, Option.some.inj heq⟩, fun heq => congrArg some heq.2⟩
  · rw [if_neg h]
    exact ⟨nofun, fun heq => absurd heq.1 h⟩

theorem Profile.dev_i64_of_not {n : Int} (h : ¬ InI64 n) : Profile.dev.i64 n = none := if_neg h

/-- A power of ten from `10^19` on overflows. -/
theorem inI64_pow_iff (n : Nat) : InI64 (10 ^ n) ↔ n ≤ 18 := by
  constructor
  · intro h
    by_contra hlt
    have hpow : (10 : Int) ^ 19 ≤ 10 ^ n := pow_le_pow_right₀ (by norm_num) (by omega)
    have hrange := h.2
    norm_num at hpow hrange
    omega
  · intro h
    have hpow : (10 : Int) ^ n ≤ 10 ^ 18 := pow_le_pow_right₀ (by norm_num) h
    have hpos : (0 : Int) < 10 ^ n := by positivity
    norm_num at hpow
    exact ⟨by omega, by omega⟩

/-! ## Truncation -/

/-- The integer part, towards zero. -/
def truncated (x : ℚ) : Int := x.num.tdiv x.den

theorem truncated_neg (x : ℚ) : truncated (-x) = -truncated x := by
  unfold truncated
  rw [Rat.neg_num, Rat.neg_den, Int.neg_tdiv]

theorem truncated_eq_floor {x : ℚ} (h : 0 ≤ x) : truncated x = ⌊x⌋ := by
  unfold truncated
  rw [Int.tdiv_eq_ediv_of_nonneg (Rat.num_nonneg.mpr h), Rat.floor_def']

/-- Between two integers it is the lower one. -/
theorem truncated_eq {x : ℚ} {n : Int} (hn : 0 ≤ n) (hlow : (n : ℚ) ≤ x) (hhigh : x < n + 1) : truncated x = n := by
  rw [truncated_eq_floor (le_trans (by exact_mod_cast hn) hlow)]
  exact Int.floor_eq_iff.mpr ⟨hlow, hhigh⟩

@[simp] theorem truncated_intCast (n : Int) : truncated n = n := by
  unfold truncated
  rw [Rat.num_intCast, Rat.den_intCast, Nat.cast_one, Int.tdiv_one]

/-- Integer division truncates. -/
theorem truncated_div (n : Int) (m : Nat) : truncated ((n : ℚ) / m) = n.tdiv m := by
  rcases le_total 0 n with hn | hn
  · have hquotient : (0 : ℚ) ≤ n / m := div_nonneg (by exact_mod_cast hn) (Nat.cast_nonneg m)
    rw [truncated_eq_floor hquotient, Rat.floor_intCast_div_natCast, Int.tdiv_eq_ediv_of_nonneg hn]
  · have hquotient : (0 : ℚ) ≤ ((-n : Int) : ℚ) / m :=
      div_nonneg (by exact_mod_cast Int.neg_nonneg.mpr hn) (Nat.cast_nonneg m)
    have hneg : (n : ℚ) / m = -(((-n : Int) : ℚ) / m) := by
      push_cast
      rw [neg_div, neg_neg]
    rw [hneg, truncated_neg, truncated_eq_floor hquotient, Rat.floor_intCast_div_natCast,
      ← Int.tdiv_eq_ediv_of_nonneg (Int.neg_nonneg.mpr hn), Int.neg_tdiv, neg_neg]

end Rust
end TradingPlatform
