import TradingPlatform.Rust.Duration
import TradingPlatform.Rust.Numeral
import Mathlib.Data.List.DropRight

/-!
# `Rust.Fixed` — numbers printed with a fixed number of decimals

`format!("{:.n$}", x)` prints a number to `n` decimals. What it prints of a non-negative multiple of the last decimal
is a numeral that denotes the number, and it still is without the zeros at its end (`trimmed_decimals`). Such a
numeral reads back as what it denotes (`parseF64_digits`).
-/

namespace TradingPlatform
namespace Rust

/-- `x.fract()` -/
def fract (x : ℚ) : ℚ := x - truncated x

/-- `format!("{:.places$}", x)` -/
def formatFixed (places : Nat) (x : ℚ) : List Char :=
  let n := (nearestEven (|x| * 10 ^ places)).toNat
  (if x < 0 then ['-'] else []) ++ Nat.toDigits 10 (n / 10 ^ places) ++
    if places = 0 then [] else '.' :: (Nat.toDigits 10 (n % 10 ^ places)).leftpad places '0'

/-- `s.trim_end_matches(c)` -/
def trimEndMatches (c : Char) (s : List Char) : List Char := s.rdropWhile fun c' => c' == c

/-- The fraction of a multiple of the last decimal. -/
theorem fract_multiple (places n : Nat) : fract (n / 10 ^ places) = (n % 10 ^ places : Nat) / 10 ^ places := by
  have hpos : (0 : ℚ) ≤ n / 10 ^ places := by positivity
  have hfract : fract ((n : ℚ) / 10 ^ places) = Int.fract ((n : ℚ) / (10 ^ places : Nat)) := by
    rw [fract, truncated_eq_floor hpos, Int.fract, Nat.cast_pow]
    rfl
  rw [hfract, Int.fract_div_natCast_eq_div_natCast_mod, Nat.cast_pow]
  rfl

/-! ## Digits of a number -/

theorem digitsValue_eq_ofDigitChars (ds : List (Fin 10)) :
    digitsValue ds = Nat.ofDigitChars 10 (digitsText ds) 0 := by
  unfold digitsValue ofDigits digitsText
  rw [Nat.ofDigitChars_eq_foldl, List.foldl_map, List.foldl_map]
  simp only [toNat_digitChar]

theorem exists_digits (n : Nat) : ∃ ds, ds ≠ [] ∧ Nat.toDigits 10 n = digitsText ds ∧ digitsValue ds = n := by
  obtain ⟨ds, hds⟩ : ∃ ds, Nat.toDigits 10 n = digitsText ds :=
    exists_digitsText fun c hc => Nat.isDigit_of_mem_toDigits (by decide) (Nat.le_refl 10) hc
  refine ⟨ds, ?_, hds, ?_⟩
  · rintro rfl
    exact Nat.toDigits_ne_nil hds
  · rw [digitsValue_eq_ofDigitChars, ← hds, Nat.ofDigitChars_ten_toDigits]

/-- The same with zeros in front, to a given length. -/
theorem exists_padded {places n : Nat} (hplaces : 0 < places) (hn : n < 10 ^ places) :
    ∃ ds, ds.length = places ∧ (Nat.toDigits 10 n).leftpad places '0' = digitsText ds ∧ digitsValue ds = n := by
  obtain ⟨ds, -, htext, hvalue⟩ := exists_digits n
  have hlength : ds.length ≤ places := by
    rw [← length_digitsText ds, ← htext]
    exact (Nat.length_toDigits_le_iff (by decide) hplaces).mpr hn
  refine ⟨List.replicate (places - ds.length) 0 ++ ds, ?_, ?_, ?_⟩
  · rw [List.length_append, List.length_replicate]
    omega
  · rw [List.leftpad, htext, length_digitsText, digitsText_append, digitsText_replicate]
  · rw [digitsValue_append, digitsValue_replicate_zero, Nat.zero_mul, Nat.zero_add, hvalue]

/-! ## What is printed -/

/-- The value of digits before and behind a point. -/
def pointed (whole decimals : List (Fin 10)) : ℚ := digitsValue (whole ++ decimals) / 10 ^ decimals.length

theorem pointed_concat_zero (whole decimals : List (Fin 10)) :
    pointed whole (decimals ++ [0]) = pointed whole decimals := by
  unfold pointed
  rw [← List.append_assoc, digitsValue_snoc, List.length_append, List.length_singleton, pow_succ]
  push_cast
  rw [Fin.val_zero, Nat.cast_zero, add_zero, mul_comm (10 ^ decimals.length : ℚ), mul_div_mul_left _ _ (by norm_num)]

/-- A multiple of the last decimal needs no rounding. -/
theorem formatFixed_multiple (places n : Nat) :
    formatFixed places (n / 10 ^ places) = Nat.toDigits 10 (n / 10 ^ places) ++
      if places = 0 then [] else '.' :: (Nat.toDigits 10 (n % 10 ^ places)).leftpad places '0' := by
  have hpos : (0 : ℚ) ≤ n / 10 ^ places := by positivity
  have hscaled : |(n : ℚ) / 10 ^ places| * 10 ^ places = (n : Int) := by
    rw [abs_of_nonneg hpos, div_mul_cancel₀ _ (by positivity), Int.cast_natCast]
  unfold formatFixed
  rw [hscaled, nearestEven_intCast, Int.toNat_natCast, if_neg (not_lt.mpr hpos)]
  rfl

/-- A whole number is printed without a point. -/
theorem formatFixed_natCast (n : Nat) : formatFixed 0 (n : ℚ) = Nat.toDigits 10 n := by
  have h := formatFixed_multiple 0 n
  rw [pow_zero, div_one, if_pos rfl, List.append_nil] at h
  rw [h, pow_zero, Nat.div_one]

/-- **A multiple of the last decimal is printed exactly.** -/
theorem exists_formatFixed {places : Nat} (hplaces : 0 < places) (n : Nat) :
    ∃ whole decimals, whole ≠ [] ∧ decimals.length = places ∧
      formatFixed places (n / 10 ^ places) = digitsText whole ++ '.' :: digitsText decimals ∧
      pointed whole decimals = n / 10 ^ places ∧ digitsValue decimals = n % 10 ^ places := by
  obtain ⟨whole, hwhole, htext, hvalue⟩ := exists_digits (n / 10 ^ places)
  obtain ⟨decimals, hlength, htext', hvalue'⟩ := exists_padded hplaces (Nat.mod_lt n (Nat.pow_pos (by decide)))
  refine ⟨whole, decimals, hwhole, hlength, ?_, ?_, hvalue'⟩
  · rw [formatFixed_multiple, if_neg hplaces.ne', htext, htext']
  · unfold pointed
    rw [digitsValue_append, hvalue, hvalue', hlength, Nat.div_add_mod']

/-! ## Zeros at the end -/

theorem trimEndMatches_concat_self (c : Char) (s : List Char) :
    trimEndMatches c (s ++ [c]) = trimEndMatches c s := List.rdropWhile_concat_pos _ _ _ (beq_self_eq_true c)

theorem trimEndMatches_concat_of_ne {c c' : Char} (h : c' ≠ c) (s : List Char) :
    trimEndMatches c (s ++ [c']) = s ++ [c'] := List.rdropWhile_concat_neg _ _ _ (by simp [h])

/-- **The zeros at the end can go**, unless there is nothing else behind the point: then the point goes as well. -/
theorem trimmed_decimals (whole : List (Fin 10)) {decimals : List (Fin 10)} (h : digitsValue decimals ≠ 0) :
    ∃ decimals', trimEndMatches '.' (trimEndMatches '0' (digitsText whole ++ '.' :: digitsText decimals)) =
        digitsText whole ++ '.' :: digitsText decimals' ∧ pointed whole decimals' = pointed whole decimals := by
  induction decimals using List.reverseRecOn with
  | nil => exact absurd rfl h
  | append_singleton decimals d ih =>
      have hsnoc : digitsText whole ++ '.' :: digitsText (decimals ++ [d]) =
          (digitsText whole ++ '.' :: digitsText decimals) ++ [digitChar d] := by
        rw [digitsText_append, List.append_assoc, List.cons_append]
        rfl
      by_cases hd : d = 0
      · -- a zero more at the end changes neither the result nor the value
        subst hd
        have hvalue : digitsValue decimals ≠ 0 := by
          intro hzero
          rw [digitsValue_snoc, hzero] at h
          exact h rfl
        obtain ⟨decimals', htext, hpointed⟩ := ih hvalue
        refine ⟨decimals', ?_, hpointed.trans (pointed_concat_zero whole decimals).symm⟩
        rw [hsnoc, ← htext]
        exact congrArg (trimEndMatches '.') (trimEndMatches_concat_self '0' _)
      · refine ⟨decimals ++ [d], ?_, rfl⟩
        have hchars : ∀ d : Fin 10, d ≠ 0 → digitChar d ≠ '0' ∧ digitChar d ≠ '.' := by decide
        rw [hsnoc, trimEndMatches_concat_of_ne (hchars d hd).1, trimEndMatches_concat_of_ne (hchars d hd).2]

/-! ## Reading it back -/

/-- Digits are read up to what is none. -/
theorem spanDigits_digits (ds : List (Fin 10)) {rest : List Char} (h : ∀ c ∈ rest.head?, c.isDigit = false) :
    spanDigits (digitsText ds ++ rest) = (ds.map Fin.val, rest) := by
  have hdigits : ∀ c ∈ digitsText ds, c.isDigit = true := by
    intro c hc
    obtain ⟨d, -, rfl⟩ := List.mem_map.mp hc
    exact isDigit_digitChar d
  have hrest : rest.takeWhile Char.isDigit = [] ∧ rest.dropWhile Char.isDigit = rest := by
    cases rest with
    | nil => exact ⟨rfl, rfl⟩
    | cons c rest =>
        have hc := h c rfl
        rw [List.takeWhile_cons, List.dropWhile_cons, hc]
        exact ⟨rfl, rfl⟩
  unfold spanDigits
  rw [List.takeWhile_append_of_pos hdigits, List.dropWhile_append_of_pos hdigits, hrest.1, hrest.2, List.append_nil,
    digitsText, List.map_map]
  exact congrArg (·, rest) (List.map_congr_left fun d _ => toNat_digitChar d)

/-- **A numeral of digits reads back** as what it denotes. -/
theorem parseF64_digits {whole : List (Fin 10)} (hwhole : whole ≠ []) (fraction : Option (List (Fin 10))) :
    parseF64 (String.ofList (digitsText whole ++ Numeral.fractionText fraction)) =
      some (pointed whole (fraction.getD [])) := by
  have hne : (whole.map Fin.val).isEmpty = false := by simpa using hwhole
  unfold parseF64 pointed digitsValue
  rw [String.toList_ofList, spanSign_digits hwhole, List.map_append]
  cases fraction with
  | none =>
      have hspan := @spanDigits_digits whole [] (by simp)
      simp only [Numeral.fractionText, hspan, hne, Bool.false_and, Bool.false_eq_true, if_false, parseExponent,
        Option.map_some, zpow_zero, mul_one]
      rfl
  | some decimals =>
      have hspan := @spanDigits_digits whole ('.' :: digitsText decimals) (by simp)
      have hspan' := @spanDigits_digits decimals [] (by simp)
      rw [List.append_nil] at hspan'
      simp only [Numeral.fractionText, hspan, hspan', hne, Bool.false_and, Bool.false_eq_true, if_false,
        parseExponent, Option.map_some, zpow_zero, mul_one, List.length_map]
      rfl

end Rust
end TradingPlatform
