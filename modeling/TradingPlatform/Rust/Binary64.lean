import TradingPlatform.Library.Rounding
import TradingPlatform.Rust.Ieee

/-!
# `Rust.Binary64` — rounding to `f64`

The format of the finite numbers is that of `Library.Rounding` with 53 digits; what is rounded beyond the greatest of
them is an infinity. Zero has no sign here, and there is one NaN.
-/

namespace TradingPlatform
namespace Rust

open Rounding

/-- The finite `f64`s, as if there were no greatest exponent. -/
def binary64 : Format where
  precision := 53
  least     := -1074
  pos       := by decide

/-- A number that is an `f64`. -/
abbrev IsDouble (x : ℚ) : Prop := binary64.round x = x

/-- The `f64` an exact result is rounded to. -/
def F64.ofRat (x : ℚ) : F64 :=
  if |binary64.round x| ≤ f64Max then .finite (binary64.round x) else .infinity (decide (x < 0))

def F64.isFinite : F64 → Bool
  | .finite _ => true
  | _         => false

example : F64.ofRat (1 / 10) = .finite (3602879701896397 / 2 ^ 55) := by decide +kernel

namespace F64

variable {x : ℚ}

theorem ofRat_of_isFinite (h : (ofRat x).isFinite) : ofRat x = .finite (binary64.round x) := by
  unfold ofRat at h ⊢
  split at h
  next hle => exact if_pos hle
  next => cases h

theorem ofRat_of_round_zero (h : binary64.round x = 0) : ofRat x = 0 := by
  unfold ofRat
  rw [h, abs_zero, if_pos (by decide +kernel)]
  rfl

theorem ofRat_ne_zero (h : binary64.round x ≠ 0) : ofRat x ≠ 0 := by
  intro hzero
  have hfinite : (ofRat x).isFinite := hzero ▸ rfl
  exact h (F64.finite.inj ((ofRat_of_isFinite hfinite).symm.trans hzero))

end F64

/-! ## Powers -/

/-- What is multiplied so far, the power at hand, and the exponent that is left of it. -/
def powiLoop : Nat → ℚ → ℚ → Nat → ℚ
  | 0, r, _, _        => r
  | fuel + 1, r, a, b =>
    let r := if b % 2 = 1 then binary64.round (r * a) else r
    if b / 2 = 0 then r else powiLoop fuel r (binary64.round (a * a)) (b / 2)

/-- `x.powi(n)`, by repeated squaring as the runtime library of the compiler has it. -/
def powi (x : ℚ) (n : Nat) : ℚ := powiLoop (n + 1) 1 x n

/-! ## Parsing -/

/-- The names of the infinities and of NaN, in any case. -/
def parseName (s : String) : Option F64 :=
  let (neg, cs) := spanSign s.toList
  let name := cs.map Char.toLower
  if name = "inf".toList ∨ name = "infinity".toList then some (.infinity neg)
  else if name = "nan".toList then some .nan
  else none

/-- `s.parse::<f64>()` of any text: a numeral is rounded. -/
def f64FromStr (s : String) : Option F64 :=
  match parseF64 s with
  | some x => some (.ofRat x)
  | none   => parseName s

theorem f64FromStr_of_numeral {s : String} {x : ℚ} (h : parseF64 s = some x) : f64FromStr s = some (.ofRat x) := by
  unfold f64FromStr
  rw [h]

/-- Names are not names of finite numbers. -/
theorem numeral_of_f64FromStr {s : String} {value : F64} (h : f64FromStr s = some value) (hfinite : value.isFinite) :
    ∃ x, parseF64 s = some x ∧ value = .finite (binary64.round x) := by
  unfold f64FromStr at h
  cases hx : parseF64 s with
  | some x =>
      rw [hx] at h
      obtain rfl := Option.some.inj h
      exact ⟨x, rfl, F64.ofRat_of_isFinite hfinite⟩
  | none =>
      rw [hx] at h
      unfold parseName at h
      dsimp only at h
      split_ifs at h <;> cases h <;> cases hfinite

example : f64FromStr "-Infinity" = some (.infinity true) := by decide +kernel

end Rust
end TradingPlatform
