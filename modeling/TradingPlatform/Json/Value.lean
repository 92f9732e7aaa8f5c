import Mathlib.Algebra.Group.Int.Defs
import Mathlib.Algebra.Group.Nat.Defs
import Mathlib.Data.Rat.Defs

/-!
# `Json.Value` — parsed JSON and the accessors the handlers read it through

The exchange handlers never look at JSON text: they read a parsed value through `get`, indexing and the
`as_*` accessors, each of which answers `none` on a value of another shape. Integers keep the two ranges the
parser keeps (`u64` for what is not negative, `i64` for the rest); a number with a fraction or an exponent is
a rational.
-/

namespace TradingPlatform
namespace Json

inductive Number where
  | posInt (n : UInt64)
  | negInt (n : Int64)
  | float (q : ℚ)
deriving DecidableEq

def Number.value : Number → ℚ
  | .posInt n => n.toNat
  | .negInt n => n.toInt
  | .float q  => q

/-- A parsed value. The fields of an object are the entries of a map, so a key occurs once. -/
inductive Value where
  | null
  | bool (b : Bool)
  | number (n : Number)
  | string (s : String)
  | array (xs : List Value)
  | object (fields : List (String × Value))
deriving Inhabited

namespace Value

/-- `value.get(key)`. -/
def get? : Value → String → Option Value
  | object fields, key => fields.lookup key
  | _, _               => none

/-- `value[key]`: a missing key reads as `null`. -/
def index (v : Value) (key : String) : Value := (v.get? key).getD null

/-- `value.get(index)`. -/
def getIdx? : Value → Nat → Option Value
  | array xs, i => xs[i]?
  | _, _        => none

def asU64? : Value → Option Nat
  | number (.posInt n) => some n.toNat
  | _                  => none

/-- An unsigned number above `i64::MAX` is not an `i64`. -/
def asI64? : Value → Option Int
  | number (.posInt n) => if n.toNat < 2 ^ 63 then some n.toNat else none
  | number (.negInt n) => some n.toInt
  | _                  => none

def asF64? : Value → Option ℚ
  | number n => some n.value
  | _        => none

def asStr? : Value → Option String
  | string s => some s
  | _        => none

def asArray? : Value → Option (List Value)
  | array xs => some xs
  | _        => none

/-- The number `n` as the parser reads it. -/
def ofNat (n : Nat) : Value := number (.posInt (UInt64.ofNat n))

theorem asU64?_ofNat {n : Nat} (h : n < 2 ^ 64) : (ofNat n).asU64? = some n := by
  show some (UInt64.ofNat n).toNat = some n
  rw [UInt64.toNat_ofNat_of_lt' h]

theorem asI64?_ofNat {n : Nat} (h : n < 2 ^ 63) : (ofNat n).asI64? = some (n : Int) := by
  show (if (UInt64.ofNat n).toNat < 2 ^ 63 then some ((UInt64.ofNat n).toNat : Int) else none) = some (n : Int)
  rw [UInt64.toNat_ofNat_of_lt' (Nat.lt_trans h (by decide)), if_pos h]

/-- Fields of other keys at the end of an object are not found. -/
theorem get?_append {fields extra : List (String × Value)} {key : String} (h : ∀ field ∈ extra, field.1 ≠ key) :
    (object (fields ++ extra)).get? key = fields.lookup key := by
  have hnone : extra.lookup key = none :=
    List.lookup_eq_none_iff.mpr fun field hfield => bne_iff_ne.mpr (h field hfield).symm
  show (fields ++ extra).lookup key = _
  rw [List.lookup_append, hnone, Option.or_none]

/-- Whatever is read as a `u64` is in range. -/
theorem asU64?_lt {v : Value} {n : Nat} (h : v.asU64? = some n) : n < 2 ^ 64 := by
  unfold asU64? at h
  split at h
  · obtain rfl := Option.some.inj h
    exact UInt64.toNat_lt _
  · cases h

end Value
end Json
end TradingPlatform
