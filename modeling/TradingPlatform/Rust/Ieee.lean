import TradingPlatform.Rust.Overflow

/-!
# `Rust.Ieee` — exact numbers with infinities

Where the code divides by what may be zero, an `f64` is a rational number, an infinity or NaN. What becomes of
infinities and NaN is as in the language; finite results are exact, and zero has no sign.
-/

namespace TradingPlatform
namespace Rust

inductive F64 where
  | finite (x : ℚ)
  | infinity (negative : Bool)
  | nan
deriving DecidableEq

/-- Half away from zero. -/
def rounded (x : ℚ) : Int := if 0 ≤ x then ⌊x + 1 / 2⌋ else ⌈x - 1 / 2⌉

theorem rounded_intCast (n : Int) : rounded (n : ℚ) = n := by
  unfold rounded
  split
  · exact Int.floor_eq_iff.mpr ⟨by linarith, by linarith⟩
  · exact Int.ceil_eq_iff.mpr ⟨by linarith, by linarith⟩

namespace F64

instance (n : Nat) : OfNat F64 n := ⟨.finite n⟩

/-! ## Arithmetic -/

def neg : F64 → F64
  | .finite x   => .finite (-x)
  | .infinity s => .infinity !s
  | .nan        => .nan

def add : F64 → F64 → F64
  | .finite x, .finite y     => .finite (x + y)
  | .infinity s, .finite _   => .infinity s
  | .finite _, .infinity s   => .infinity s
  | .infinity s, .infinity t => if s = t then .infinity s else .nan
  | _, _                     => .nan

def mul : F64 → F64 → F64
  | .finite x, .finite y     => .finite (x * y)
  | .infinity s, .finite y   => if y = 0 then .nan else .infinity (s ^^ decide (y < 0))
  | .finite x, .infinity s   => if x = 0 then .nan else .infinity (s ^^ decide (x < 0))
  | .infinity s, .infinity t => .infinity (s ^^ t)
  | _, _                     => .nan

def div : F64 → F64 → F64
  | .finite x, .finite y   =>
    if y = 0 then
      if x = 0 then .nan else .infinity (decide (x < 0))
    else .finite (x / y)
  | .infinity s, .finite y => .infinity (s ^^ decide (y < 0))
  | .finite _, .infinity _ => .finite 0
  | _, _                   => .nan

instance : Add F64 := ⟨add⟩
instance : Sub F64 := ⟨fun x y => add x (neg y)⟩
instance : Mul F64 := ⟨mul⟩
instance : Div F64 := ⟨div⟩

/-! ## Comparisons -/

def lt : F64 → F64 → Bool
  | .finite x, .finite y     => decide (x < y)
  | .finite _, .infinity s   => !s
  | .infinity s, .finite _   => s
  | .infinity s, .infinity t => s && !t
  | _, _                     => false

def le : F64 → F64 → Bool
  | .finite x, .finite y     => decide (x ≤ y)
  | .finite _, .infinity s   => !s
  | .infinity s, .finite _   => s
  | .infinity s, .infinity t => s || !t
  | _, _                     => false

instance : LT F64 := ⟨fun x y => lt x y = true⟩
instance : LE F64 := ⟨fun x y => le x y = true⟩

instance (x y : F64) : Decidable (x < y) := inferInstanceAs (Decidable (lt x y = true))
instance (x y : F64) : Decidable (x ≤ y) := inferInstanceAs (Decidable (le x y = true))

/-- NaN is ignored. -/
def max : F64 → F64 → F64
  | .nan, y => y
  | x, .nan => x
  | x, y    => if x < y then y else x

def min : F64 → F64 → F64
  | .nan, y => y
  | x, .nan => x
  | x, y    => if y < x then y else x

/-! ## Rounding -/

def onFinite (f : ℚ → ℚ) : F64 → F64
  | .finite x => .finite (f x)
  | x         => x

def floor (x : F64) : F64 := x.onFinite fun x => ⌊x⌋
def ceil (x : F64) : F64 := x.onFinite fun x => ⌈x⌉
def trunc (x : F64) : F64 := x.onFinite fun x => truncated x
def round (x : F64) : F64 := x.onFinite fun x => rounded x

def abs : F64 → F64
  | .finite x   => .finite |x|
  | .infinity _ => .infinity false
  | .nan        => .nan

/-- `x as usize`: towards zero, saturating, and zero for NaN. -/
def asUsize : F64 → Nat
  | .finite x       => Nat.min (truncated x).toNat (2 ^ 64 - 1)
  | .infinity false => 2 ^ 64 - 1
  | .infinity true  => 0
  | .nan            => 0

/-! ## On finite numbers -/

section

variable (x y : ℚ)

@[simp] theorem finite_add : (finite x + finite y : F64) = finite (x + y) := rfl
@[simp] theorem finite_mul : (finite x * finite y : F64) = finite (x * y) := rfl
@[simp] theorem finite_floor : (finite x).floor = finite ⌊x⌋ := rfl
@[simp] theorem finite_ceil : (finite x).ceil = finite ⌈x⌉ := rfl
@[simp] theorem finite_round : (finite x).round = finite (rounded x) := rfl
@[simp] theorem finite_abs : (finite x).abs = finite |x| := rfl
@[simp] theorem ofNat_eq (n : Nat) : (OfNat.ofNat n : F64) = finite n := rfl

@[simp] theorem finite_sub : (finite x - finite y : F64) = finite (x - y) := by
  rw [sub_eq_add_neg]
  rfl

@[simp] theorem finite_lt : finite x < finite y ↔ x < y := decide_eq_true_iff
@[simp] theorem finite_le : finite x ≤ finite y ↔ x ≤ y := decide_eq_true_iff

theorem finite_div {x y : ℚ} (hy : y ≠ 0) : (finite x / finite y : F64) = finite (x / y) := if_neg hy

theorem div_zero_of_pos {x : ℚ} (hx : 0 < x) : (finite x / finite 0 : F64) = .infinity false := by
  show (if (0 : ℚ) = 0 then if x = 0 then F64.nan else .infinity (decide (x < 0)) else .finite (x / 0)) = _
  rw [if_pos rfl, if_neg hx.ne', decide_eq_false (not_lt.mpr hx.le)]

@[simp] theorem finite_max : (finite x).max (finite y) = finite (x ⊔ y) := by
  show (if finite x < finite y then finite y else finite x) = _
  by_cases h : x < y
  · rw [if_pos ((finite_lt x y).mpr h), max_eq_right h.le]
  · rw [if_neg (mt (finite_lt x y).mp h), max_eq_left (not_lt.mp h)]

@[simp] theorem finite_min : (finite x).min (finite y) = finite (x ⊓ y) := by
  show (if finite y < finite x then finite y else finite x) = _
  by_cases h : y < x
  · rw [if_pos ((finite_lt y x).mpr h), min_eq_right h.le]
  · rw [if_neg (mt (finite_lt y x).mp h), min_eq_left (not_lt.mp h)]

end

end F64
end Rust
end TradingPlatform
