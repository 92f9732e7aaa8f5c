import Mathlib.Data.List.Infix

/-!
# `Rust.Text` — the string operations the handlers use

Strings are compared and taken apart through their lists of characters. Case conversion is the ASCII one:
exchange symbols and stream names are ASCII.
-/

namespace TradingPlatform
namespace Rust

/-- `s.contains(pat)`. -/
def contains (s pat : String) : Bool := decide (pat.toList <:+: s.toList)

/-- `s.starts_with(pat)`. -/
def startsWith (s pat : String) : Bool := decide (pat.toList <+: s.toList)

/-- `s.split(c).next()`: everything before the first `c`. -/
def splitFirst (c : Char) (s : String) : String := String.ofList (s.toList.takeWhile (· ≠ c))

/-- A string starts with one of two patterns only, unless one of these starts with the other. -/
theorem startsWith_other {s pat pat' : String} (h : startsWith s pat = true) (hne : startsWith pat' pat = false)
    (hne' : startsWith pat pat' = false) : startsWith s pat' = false := by
  refine decide_eq_false fun h' => ?_
  rcases List.prefix_or_prefix_of_prefix (of_decide_eq_true h) h' with hle | hle
  · exact of_decide_eq_false hne hle
  · exact of_decide_eq_false hne' hle

def toUppercase (s : String) : String := String.ofList (s.toList.map Char.toUpper)

def toLowercase (s : String) : String := String.ofList (s.toList.map Char.toLower)

end Rust
end TradingPlatform
