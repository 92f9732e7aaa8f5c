import TradingPlatform.Rust.Overflow

/-!
# `Rust.Duration` — durations and their conversion from seconds

A `Duration` is its number of nanoseconds. `from_secs_f64` rounds to the nearest one, ties to even, and panics on
what is negative or has more seconds than fit in a `u64`.
-/

namespace TradingPlatform
namespace Rust

/-- To the nearest integer, ties to the even one. -/
def nearestEven (x : ℚ) : Int :=
  if x - ⌊x⌋ < 1 / 2 then ⌊x⌋ else if 1 / 2 < x - ⌊x⌋ then ⌊x⌋ + 1 else ⌊x⌋ + ⌊x⌋ % 2

/-- The integer is at most half away, and even when it is exactly half. -/
theorem nearestEven_spec (x : ℚ) :
    (nearestEven x : ℚ) - 1 / 2 ≤ x ∧ x ≤ nearestEven x + 1 / 2 ∧
    (nearestEven x % 2 = 0 ∨ (nearestEven x : ℚ) - 1 / 2 < x ∧ x < nearestEven x + 1 / 2) := by
  have hlow := Int.floor_le x
  have hhigh := Int.lt_floor_add_one x
  unfold nearestEven
  split_ifs with hbelow habove
  · exact ⟨by linarith, by linarith, Or.inr ⟨by linarith, by linarith⟩⟩
  · push_cast
    exact ⟨by linarith, by linarith, Or.inr ⟨by linarith, by linarith⟩⟩
  · -- a tie: the even neighbour is the floor or the next integer
    rcases Int.emod_two_eq_zero_or_one ⌊x⌋ with heven | hodd
    · rw [heven, add_zero]
      exact ⟨by linarith, by linarith, Or.inl heven⟩
    · rw [hodd]
      push_cast
      exact ⟨by linarith, by linarith, Or.inl (by omega)⟩

@[simp] theorem nearestEven_intCast (n : Int) : nearestEven n = n := by
  simp [nearestEven]

/-- Against an even bound the half is on the lower side. -/
theorem nearestEven_le_iff {x : ℚ} {n : Int} (heven : n % 2 = 0) : nearestEven x ≤ n ↔ x ≤ n + 1 / 2 := by
  obtain ⟨hlow, hhigh, htie⟩ := nearestEven_spec x
  constructor
  · intro hle
    have hle' : (nearestEven x : ℚ) ≤ n := by exact_mod_cast hle
    linarith
  · intro hx
    by_contra hlt
    have hnext : (n : ℚ) + 1 ≤ nearestEven x := by exact_mod_cast not_le.mp hlt
    -- then the argument is the tie between `n` and the odd number after it
    have heq : nearestEven x = n + 1 := by
      have hle : (nearestEven x : ℚ) ≤ n + 1 := by linarith
      have hle' : nearestEven x ≤ n + 1 := by exact_mod_cast hle
      omega
    rcases htie with hparity | ⟨hstrict, _⟩
    · omega
    · linarith

/-- Against an even bound the half is on the upper side, from below. -/
theorem nearestEven_lt_iff {x : ℚ} {n : Int} (heven : n % 2 = 0) : nearestEven x < n ↔ x + 1 / 2 < n := by
  obtain ⟨hlow, hhigh, htie⟩ := nearestEven_spec x
  constructor
  · intro hlt
    have hlt' : (nearestEven x : ℚ) + 1 ≤ n := by exact_mod_cast hlt
    rcases htie with hparity | ⟨_, hstrict⟩
    · have hgap : nearestEven x + 2 ≤ n := by omega
      have hgap' : (nearestEven x : ℚ) + 2 ≤ n := by exact_mod_cast hgap
      linarith
    · linarith
  · intro hx
    have hlt : (nearestEven x : ℚ) < n := by linarith
    exact_mod_cast hlt

theorem nearestEven_mono {x y : ℚ} (h : x ≤ y) : nearestEven x ≤ nearestEven y := by
  obtain ⟨hlow, _, htie⟩ := nearestEven_spec x
  obtain ⟨_, hhigh, htie'⟩ := nearestEven_spec y
  by_contra hlt
  have hnext : (nearestEven y : ℚ) + 1 ≤ nearestEven x := by exact_mod_cast not_le.mp hlt
  -- both are the same tie, which goes to one side only
  have heq : nearestEven x = nearestEven y + 1 := by
    have hle : (nearestEven x : ℚ) ≤ nearestEven y + 1 := by linarith
    have hle' : nearestEven x ≤ nearestEven y + 1 := by exact_mod_cast hle
    omega
  rcases htie with hparity | ⟨hstrict, _⟩
  · rcases htie' with hparity' | ⟨_, hstrict'⟩
    · omega
    · linarith
  · linarith

theorem nearestEven_nonneg {x : ℚ} (h : 0 ≤ x) : 0 ≤ nearestEven x := by
  have hmono := nearestEven_mono h
  rwa [show nearestEven 0 = 0 from nearestEven_intCast 0] at hmono

namespace Duration

def fromSecs (secs : Nat) : Nat := secs * 10 ^ 9

def asSecsF64 (duration : Nat) : ℚ := duration / 10 ^ 9

def fromSecsF64 (secs : ℚ) : Option Nat :=
  if secs < 0 then none
  else if nearestEven (secs * 10 ^ 9) < 2 ^ 64 * 10 ^ 9 then some (nearestEven (secs * 10 ^ 9)).toNat
  else none

/-- A duration that is scaled and converted back is rounded once. -/
theorem fromSecsF64_scaled (duration : Nat) {factor : ℚ} (h : 0 ≤ factor) :
    fromSecsF64 (asSecsF64 duration * factor) =
      if duration * factor + 1 / 2 < 2 ^ 64 * 10 ^ 9 then some (nearestEven (duration * factor)).toNat
      else none := by
  have hnanos : asSecsF64 duration * factor * 10 ^ 9 = duration * factor := by
    unfold asSecsF64
    ring
  have hnonneg : ¬ asSecsF64 duration * factor < 0 :=
    not_lt.mpr (mul_nonneg (div_nonneg (Nat.cast_nonneg _) (by norm_num)) h)
  have hfits := nearestEven_lt_iff (x := duration * factor) (n := 2 ^ 64 * 10 ^ 9) (by norm_num)
  unfold fromSecsF64
  rw [if_neg hnonneg, hnanos]
  refine if_congr ?_ rfl rfl
  rw [hfits]
  norm_cast

end Duration

end Rust
end TradingPlatform
