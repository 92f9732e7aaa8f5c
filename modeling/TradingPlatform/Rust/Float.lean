import Mathlib.Data.Rat.Floor
import Mathlib.Algebra.Order.Field.Rat

/-!
# `Rust.Float` — numbers of the handlers

`f64` is modelled by the rationals: sums, products and quotients are exact, and there is no infinity and no
NaN. What depends on rounding is therefore outside the model; the statements take prices as exact multiples of
the tick. The conversions to machine integers are those of the language: truncation towards zero, saturating
at the ends of the range.
-/

namespace TradingPlatform
namespace Rust

/-- The range of `i64`. -/
def InI64 (n : Int) : Prop := -2 ^ 63 ≤ n ∧ n < 2 ^ 63

instance (n : Int) : Decidable (InI64 n) := inferInstanceAs (Decidable (_ ∧ _))

/-- `x as i64` of a float. -/
def asI64 (x : ℚ) : Int := max (-2 ^ 63) (min (2 ^ 63 - 1) (x.num.tdiv x.den))

/-- `f64::MAX` -/
def f64Max : ℚ := 2 ^ 1024 - 2 ^ 971

/-- `n as u64` of an `i64`. -/
def i64AsU64 (n : Int) : Nat := (n % 2 ^ 64).toNat

/-- An integer in range converts to itself. -/
theorem asI64_intCast {n : Int} (h : InI64 n) : asI64 (n : ℚ) = n := by
  unfold InI64 at h
  unfold asI64
  rw [Rat.num_intCast, Rat.den_intCast, Nat.cast_one, Int.tdiv_one]
  omega

/-! ## Parsing -/

/-- The digits at the front and what follows them. -/
def spanDigits (cs : List Char) : List Nat × List Char :=
  ((cs.takeWhile Char.isDigit).map fun c => c.toNat - '0'.toNat, cs.dropWhile Char.isDigit)

def ofDigits (ds : List Nat) : Nat := ds.foldl (fun n d => 10 * n + d) 0

/-- An optional sign, then the rest. -/
def spanSign : List Char → Bool × List Char
  | '-' :: cs => (true, cs)
  | '+' :: cs => (false, cs)
  | cs        => (false, cs)

/-- What follows the mantissa: nothing, or an exponent with at least one digit. -/
def parseExponent : List Char → Option Int
  | []      => some 0
  | c :: cs =>
    if c = 'e' ∨ c = 'E' then
      let (neg, cs) := spanSign cs
      let (ds, rest) := spanDigits cs
      if ds.isEmpty || !rest.isEmpty then none
      else some (if neg then -(ofDigits ds : Int) else ofDigits ds)
    else none

/-- The exact value of a decimal numeral: a sign, digits with at most one point and at least one digit, an exponent.
    `s.parse::<f64>()` rounds it, to an infinity if it is too large, and takes the names of the infinities and of NaN
    besides, which are no numerals; where that matters it is `f64FromStr`. -/
def parseF64 (s : String) : Option ℚ :=
  let (neg, cs) := spanSign s.toList
  let (whole, cs) := spanDigits cs
  let (frac, cs) :=
    match cs with
    | '.' :: cs => spanDigits cs
    | cs        => ([], cs)
  if whole.isEmpty && frac.isEmpty then none
  else
    (parseExponent cs).map fun e =>
      let mantissa : ℚ := ofDigits (whole ++ frac) / 10 ^ frac.length
      (if neg then -mantissa else mantissa) * (10 : ℚ) ^ e

example : parseF64 "-12.50e1" = some (-125) := by decide +kernel

end Rust
end TradingPlatform
