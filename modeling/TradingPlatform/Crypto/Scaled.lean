import TradingPlatform.Rust.Binary64
import TradingPlatform.Rust.Numeral
import TradingPlatform.Sender.RoundTrip

/-!
# `Crypto.Scaled` — prices and quantities from text to scaled integers

`parse_to_scaled` multiplies by a power of ten without a detour through floats. What it cannot parse becomes 0 in
`parse_to_scaled_or_default`, and so does what vanishes below the precision. `Kept` says of which positive
numerals something is left (`parseToScaledOrDefault_ne_zero_iff`).
-/

namespace TradingPlatform
namespace Crypto

open Rust Sender

/-! ## The parser -/

/-- `10_i64.pow(precision)`, without overflow checks. -/
def scale (precision : Nat) : Int := wrapI64 (10 ^ precision)

def checked (n : Int) : Option Int := if InI64 n then some n else none

/-- Pad with zeros or truncate to the precision. The text is taken to be ASCII: to cut inside a longer character
    panics. -/
def fitDecimals (decimals : List Char) (precision : Nat) : List Char :=
  if decimals.length < precision then decimals ++ List.replicate (precision - decimals.length) '0'
  else decimals.take precision

/-- Nothing in front of the point is 0. -/
def parseWhole (whole : List Char) : Option Int := if whole = [] then some 0 else parseI64 whole

/-- Parse price/quantity string directly to scaled i64. -/
def parseToScaled (value : String) (precision : Nat) : Option Int :=
  match value.toList.splitOn '.' with
  | [whole] => do
      let integerPart ← parseI64 whole
      checked (integerPart * scale precision)
  | [whole, decimals] => do
      let integerPart ← parseWhole whole
      let decimalPart ← parseI64 (fitDecimals decimals precision)
      let product ← checked (integerPart * scale precision)
      checked (product + decimalPart)
  | _ => none

/-- Parse and scale, with fallback to 0. -/
def parseToScaledOrDefault (value : String) (precision : Nat) : Int := (parseToScaled value precision).getD 0

example : parseToScaled "95123.45" 8 = some 9512345000000 ∧ parseToScaled "0.00000123" 8 = some 123 ∧
    parseToScaled "1.123456789" 8 = some 112345678 := by decide +kernel

/-! ## Numbers -/

/-- `(v * 10_f64.powi(precision)) as i64`, of the `f64` nearest to `v`. The product is rounded before it is cut. -/
def scaleF64 (v : ℚ) (precision : Nat) : Int := asI64 (binary64.round (binary64.round v * powi 10 precision))

example : scaleF64 (29 / 100) 2 = 28 ∧ scaleF64 (17976931348623157 * 10 ^ 292) 2 = 2 ^ 63 - 1 := by decide +kernel

/-! ## What is left of a numeral -/

/-- The digits in front of the point times the scale, and as many digits behind it as the precision has. -/
def scaledValue (x : Numeral) (precision : Nat) : Int :=
  digitsValue x.whole * scale precision + digitsValue (x.decimals precision)

/-- What must hold of a numeral for `parse_to_scaled` to read it, sign apart: no exponent among the digits it looks
    at; with a point, decimals to look at and nothing odd in front; and every integer on the way in range. -/
structure Readable (x : Numeral) (precision : Nat) : Prop where
  exponent : x.exponent = none ∨ ∃ ds, x.fraction = some ds ∧ precision ≤ ds.length
  point    : ∀ ds, x.fraction = some ds → 0 < precision ∧ (x.sign = none ∨ x.whole ≠ [])
  whole    : digitsValue x.whole < 2 ^ 63
  decimals : digitsValue (x.decimals precision) < 2 ^ 63
  product  : InI64 (digitsValue x.whole * scale precision)
  sum      : InI64 (scaledValue x precision)

/-! The text of a numeral, taken apart. -/

theorem point_notMem_sign (sign : Option Sign) : '.' ∉ Sign.text sign := by
  rcases sign with _ | _ | _ <;> decide

theorem point_notMem_exponent (exponent : Option Exponent) : '.' ∉ Numeral.exponentText exponent := by
  cases exponent with
  | none => exact List.not_mem_nil
  | some e =>
      rw [Numeral.exponentText, List.mem_cons, List.mem_append, not_or, not_or]
      refine ⟨?_, point_notMem_sign _, notMem_digitsText (by decide) _⟩
      rcases e.markIsE with hmark | hmark <;> rw [hmark] <;> decide

theorem splitOn_text_whole {x : Numeral} (h : x.fraction = none) :
    x.text.toList.splitOn '.' = [Sign.text x.sign ++ digitsText x.whole ++ Numeral.exponentText x.exponent] := by
  rw [Numeral.text, String.toList_ofList, h, Numeral.fractionText, List.append_nil]
  refine List.splitOn_eq_singleton ?_
  simp only [List.mem_append, not_or]
  exact ⟨⟨point_notMem_sign _, notMem_digitsText (by decide) _⟩, point_notMem_exponent _⟩

theorem splitOn_text_point {x : Numeral} {ds : List (Fin 10)} (h : x.fraction = some ds) :
    x.text.toList.splitOn '.' =
      [Sign.text x.sign ++ digitsText x.whole, digitsText ds ++ Numeral.exponentText x.exponent] := by
  rw [Numeral.text, String.toList_ofList, h, Numeral.fractionText, List.append_assoc, List.cons_append,
    List.splitOn_append_cons_self, List.splitOn_eq_singleton, List.splitOn_eq_singleton, List.singleton_append]
  · simp only [List.mem_append, not_or]
    exact ⟨notMem_digitsText (by decide) _, point_notMem_exponent _⟩
  · simp only [List.mem_append, not_or]
    exact ⟨point_notMem_sign _, notMem_digitsText (by decide) _⟩

theorem parseI64_signed {sign : Option Sign} (hsign : sign ≠ some .minus) {ds : List (Fin 10)} (hds : ds ≠ []) :
    parseI64 (Sign.text sign ++ digitsText ds) =
      if digitsValue ds < 2 ^ 63 then some (digitsValue ds : Int) else none := by
  rcases sign with _ | _ | _
  · exact parseI64_digitsText hds
  · exact parseI64_plus hds
  · exact absurd rfl hsign

/-- The mark of an exponent is an error. -/
theorem parseI64_mark {cs : List Char} {e : Exponent} (h : e.mark ∈ cs) : parseI64 cs = none := by
  rcases e.markIsE with hmark | hmark <;> rw [hmark] at h
  · exact parseI64_eq_none h (by decide) (by decide)
  · exact parseI64_eq_none h (by decide) (by decide)

/-- As long as no exponent is reached, the decimals are padded and truncated as digits. -/
theorem fitDecimals_digitsText {x : Numeral} {ds : List (Fin 10)} (h : x.fraction = some ds) {precision : Nat}
    (hexp : x.exponent = none ∨ precision ≤ ds.length) :
    fitDecimals (digitsText ds ++ Numeral.exponentText x.exponent) precision = digitsText (x.decimals precision) := by
  unfold fitDecimals
  rw [Numeral.decimals, h, Option.getD_some, digitsText_append, digitsText_take, digitsText_replicate]
  by_cases hlong : precision ≤ ds.length
  · rw [if_neg (by simp; omega), List.take_append_of_le_length (by simpa using hlong), Nat.sub_eq_zero_of_le hlong,
      List.replicate_zero, List.append_nil]
  · rw [hexp.resolve_right hlong, Numeral.exponentText, List.append_nil, if_pos (by simp; omega),
      List.take_of_length_le (by simp; omega), length_digitsText]

/-- Otherwise its mark is among them. -/
theorem mark_mem_fitDecimals {ds : List (Fin 10)} (e : Exponent) {precision : Nat} (hshort : ds.length < precision) :
    e.mark ∈ fitDecimals (digitsText ds ++ Numeral.exponentText (some e)) precision := by
  have hmem : e.mark ∈ (digitsText ds ++ Numeral.exponentText (some e)).take precision := by
    rw [List.take_append, length_digitsText]
    refine List.mem_append_right _ ?_
    obtain ⟨n, hn⟩ := Nat.exists_eq_succ_of_ne_zero (Nat.sub_ne_zero_of_lt hshort)
    rw [hn, Numeral.exponentText, List.take_succ_cons]
    exact List.mem_cons_self
  unfold fitDecimals
  split
  · exact List.mem_append_left _ (List.mem_of_mem_take hmem)
  · exact hmem

/-! ## Reading a numeral -/

theorem parseToScaled_whole {x : Numeral} (hsign : x.sign ≠ some .minus) (h : x.fraction = none)
    (hexp : x.exponent = none) (precision : Nat) :
    parseToScaled x.text precision =
      if digitsValue x.whole < 2 ^ 63 then checked (digitsValue x.whole * scale precision) else none := by
  have hwhole : x.whole ≠ [] := by simpa [h] using x.hasDigits
  rw [parseToScaled, splitOn_text_whole h, hexp, Numeral.exponentText, List.append_nil]
  simp only [parseI64_signed hsign hwhole]
  split <;> rfl

theorem parseWhole_signed {sign : Option Sign} (hsign : sign ≠ some .minus) (ds : List (Fin 10)) :
    parseWhole (Sign.text sign ++ digitsText ds) =
      if (sign = none ∨ ds ≠ []) ∧ digitsValue ds < 2 ^ 63 then some (digitsValue ds : Int) else none := by
  unfold parseWhole
  by_cases hds : ds = []
  · subst hds
    rcases sign with _ | _ | _
    · rfl
    · rfl
    · exact absurd rfl hsign
  · rw [if_neg (by simp [digitsText, hds]), parseI64_signed hsign hds]
    simp only [ne_eq, hds, not_false_eq_true, or_true, true_and]

theorem parseToScaled_point {x : Numeral} (hsign : x.sign ≠ some .minus) {ds : List (Fin 10)}
    (h : x.fraction = some ds) {precision : Nat} (hpos : 0 < precision)
    (hexp : x.exponent = none ∨ precision ≤ ds.length) :
    parseToScaled x.text precision =
      if (x.sign = none ∨ x.whole ≠ []) ∧ digitsValue x.whole < 2 ^ 63 then
        if digitsValue (x.decimals precision) < 2 ^ 63 then
          (checked (digitsValue x.whole * scale precision)).bind fun product =>
            checked (product + digitsValue (x.decimals precision))
        else none
      else none := by
  have hne : x.decimals precision ≠ [] := by
    rw [← List.length_pos_iff, Numeral.length_decimals]
    exact hpos
  rw [parseToScaled, splitOn_text_point h]
  simp only [parseWhole_signed hsign, fitDecimals_digitsText h hexp, parseI64_digitsText hne]
  split
  · split <;> rfl
  · rfl

/-- **What is read** of a numeral without a minus. -/
theorem Readable.read {x : Numeral} (hsign : x.sign ≠ some .minus) {precision : Nat}
    (h : Readable x precision) : parseToScaled x.text precision = some (scaledValue x precision) := by
  cases hfraction : x.fraction with
  | none =>
      have hexp : x.exponent = none := by
        rcases h.exponent with hexp | ⟨ds, hds, -⟩
        · exact hexp
        · rw [hfraction] at hds
          cases hds
      have hdecimals : digitsValue (x.decimals precision) = 0 := by
        rw [Numeral.decimals, hfraction, Option.getD_none, List.take_nil, List.nil_append, List.length_nil,
          digitsValue_replicate_zero]
      rw [parseToScaled_whole hsign hfraction hexp, if_pos h.whole, checked, if_pos h.product, scaledValue, hdecimals,
        Nat.cast_zero, add_zero]
  | some ds =>
      obtain ⟨hpos, hfront⟩ := h.point ds hfraction
      have hexp : x.exponent = none ∨ precision ≤ ds.length := by
        refine h.exponent.imp_right ?_
        rintro ⟨ds', hds', hle⟩
        rw [hfraction] at hds'
        rwa [Option.some.inj hds']
      rw [parseToScaled_point hsign hfraction hpos hexp, if_pos ⟨hfront, h.whole⟩, if_pos h.decimals, checked,
        if_pos h.product, Option.bind_some, checked, ← scaledValue, if_pos h.sum]

/-- **Nothing else is read.** -/
theorem Readable.of_read {x : Numeral} (hsign : x.sign ≠ some .minus) {precision : Nat} {n : Int}
    (hn : parseToScaled x.text precision = some n) : Readable x precision := by
  cases hfraction : x.fraction with
  | none =>
      have hexp : x.exponent = none := by
        cases hexp : x.exponent with
        | none => rfl
        | some e =>
            have hmark : e.mark ∈ Sign.text x.sign ++ digitsText x.whole ++ Numeral.exponentText (some e) :=
              List.mem_append_right _ List.mem_cons_self
            rw [parseToScaled, splitOn_text_whole hfraction, hexp] at hn
            simp only [parseI64_mark hmark] at hn
            cases hn
      have hdecimals : digitsValue (x.decimals precision) = 0 := by
        rw [Numeral.decimals, hfraction, Option.getD_none, List.take_nil, List.nil_append, List.length_nil,
          digitsValue_replicate_zero]
      rw [parseToScaled_whole hsign hfraction hexp, checked] at hn
      split at hn
      next hwhole =>
        split at hn
        next hproduct =>
          refine ⟨Or.inl hexp, fun ds hds => ?_, hwhole, by rw [hdecimals]; decide, hproduct, ?_⟩
          · rw [hfraction] at hds
            cases hds
          · rwa [scaledValue, hdecimals, Nat.cast_zero, add_zero]
        next => cases hn
      next => cases hn
  | some ds =>
      have hpos : 0 < precision := by
        refine Nat.pos_of_ne_zero ?_
        rintro rfl
        rw [parseToScaled, splitOn_text_point hfraction] at hn
        have hempty : fitDecimals (digitsText ds ++ Numeral.exponentText x.exponent) 0 = [] := by
          rw [fitDecimals, if_neg (Nat.not_lt_zero _), List.take_zero]
        simp only [hempty, show parseI64 [] = none from rfl, Option.bind_eq_bind, Option.bind_none,
          Option.bind_fun_none] at hn
        cases hn
      have hexp : x.exponent = none ∨ precision ≤ ds.length := by
        by_contra hcut
        obtain ⟨hsome, hshort⟩ := not_or.mp hcut
        obtain ⟨e, he⟩ := Option.ne_none_iff_exists'.mp hsome
        rw [parseToScaled, splitOn_text_point hfraction, he] at hn
        simp only [parseI64_mark (mark_mem_fitDecimals e (Nat.lt_of_not_le hshort)), Option.bind_eq_bind,
          Option.bind_none, Option.bind_fun_none] at hn
        cases hn
      rw [parseToScaled_point hsign hfraction hpos hexp, checked] at hn
      split at hn
      next hfront =>
        split at hn
        next hdecimals =>
          split at hn
          next hproduct =>
            rw [Option.bind_some, checked] at hn
            split at hn
            next hsum =>
              refine ⟨hexp.imp_right fun hle => ⟨ds, hfraction, hle⟩, fun ds' hds' => ⟨hpos, hfront.1⟩, hfront.2,
                hdecimals, hproduct, hsum⟩
            next => cases hn
          next => cases hn
        next => cases hn
      next => cases hn

/-- What a numeral needs for its scaled value not to be 0: it is read, and something is left above the precision. -/
structure Kept (x : Numeral) (precision : Nat) : Prop where
  readable : Readable x precision
  ne_zero  : scaledValue x precision ≠ 0

theorem parseToScaledOrDefault_ne_zero_iff {x : Numeral} (hsign : x.sign ≠ some .minus) {precision : Nat} :
    parseToScaledOrDefault x.text precision ≠ 0 ↔ Kept x precision := by
  unfold parseToScaledOrDefault
  constructor
  · intro h
    cases hn : parseToScaled x.text precision with
    | none =>
        rw [hn] at h
        exact absurd rfl h
    | some n =>
        have hread := Readable.of_read hsign hn
        rw [hread.read hsign] at h
        exact ⟨hread, h⟩
  · intro h
    rw [h.readable.read hsign]
    exact h.ne_zero

/-! ## Scaled values are values -/

/-- The digits kept are the fraction, cut off at the precision. -/
theorem decimals_bounds (x : Numeral) (precision : Nat) :
    digitsValue (x.decimals precision) * 10 ^ (x.fraction.getD []).length
        ≤ digitsValue (x.fraction.getD []) * 10 ^ precision ∧
      digitsValue (x.fraction.getD []) * 10 ^ precision
        < (digitsValue (x.decimals precision) + 1) * 10 ^ (x.fraction.getD []).length := by
  generalize hds : x.fraction.getD [] = ds
  have hkept : digitsValue (x.decimals precision) = digitsValue (ds.take precision) * 10 ^ (precision - ds.length) := by
    rw [Numeral.decimals, hds, digitsValue_append, digitsValue_replicate_zero, List.length_replicate, add_zero]
  have hall : digitsValue ds = digitsValue (ds.take precision) * 10 ^ (ds.length - precision)
      + digitsValue (ds.drop precision) := by
    rw [← List.length_drop, ← digitsValue_append, List.take_append_drop]
  have hrest := digitsValue_lt (ds.drop precision)
  rw [List.length_drop] at hrest
  rw [hkept, hall]
  rcases Nat.le_total precision ds.length with hle | hle
  · -- The precision cuts something off.
    have hpow : 10 ^ ds.length = 10 ^ (ds.length - precision) * 10 ^ precision := by
      rw [← pow_add, Nat.sub_add_cancel hle]
    rw [Nat.sub_eq_zero_of_le hle, pow_zero, mul_one, hpow]
    have hcut := Nat.mul_lt_mul_of_pos_right hrest (Nat.pow_pos (n := precision) (show 0 < 10 by decide))
    constructor <;> nlinarith
  · -- The precision adds zeros.
    have hpow : 10 ^ precision = 10 ^ (precision - ds.length) * 10 ^ ds.length := by
      rw [← pow_add, Nat.sub_add_cancel hle]
    have hzero : digitsValue (ds.drop precision) = 0 := by
      rw [Nat.sub_eq_zero_of_le hle, pow_zero] at hrest
      omega
    have hpos : 0 < 10 ^ ds.length := Nat.pow_pos (by decide)
    rw [Nat.sub_eq_zero_of_le hle, pow_zero, mul_one, hzero, add_zero, hpow, add_mul, one_mul, mul_assoc]
    constructor <;> omega

/-- Up to 18 decimals the scale is what it says. -/
theorem scale_eq {precision : Nat} (h : precision ≤ 18) : scale precision = 10 ^ precision := by
  refine wrapI64_eq ⟨le_trans (by norm_num) (pow_nonneg (by norm_num : (0 : Int) ≤ 10) precision), ?_⟩
  exact lt_of_le_of_lt (pow_le_pow_right₀ (by norm_num) h) (by norm_num)

variable {x : Numeral} {precision : Nat}

theorem value_eq (hsign : x.sign ≠ some .minus) (hexp : x.exponent = none) :
    x.value = digitsValue x.whole + digitsValue (x.fraction.getD []) / 10 ^ (x.fraction.getD []).length := by
  have hpow : (10 : ℚ) ^ (x.fraction.getD []).length ≠ 0 := by positivity
  have hplus : Sign.apply x.sign = id := by
    rcases hx : x.sign with _ | _ | _
    · rfl
    · rfl
    · exact absurd hx hsign
  rw [Numeral.value, hplus, hexp, Numeral.exponentValue, zpow_zero, mul_one, id, digitsValue_append]
  push_cast
  field_simp

/-- **The scaled value is the value scaled**, rounded down. -/
theorem scaledValue_bounds (hsign : x.sign ≠ some .minus) (hexp : x.exponent = none) (hp : precision ≤ 18) :
    (scaledValue x precision : ℚ) ≤ x.value * 10 ^ precision ∧
      x.value * 10 ^ precision < scaledValue x precision + 1 := by
  obtain ⟨hlow, hhigh⟩ := decimals_bounds x precision
  have hpow : (0 : ℚ) < 10 ^ (x.fraction.getD []).length := by positivity
  have hlow : (digitsValue (x.decimals precision) : ℚ) ≤
      digitsValue (x.fraction.getD []) / 10 ^ (x.fraction.getD []).length * 10 ^ precision := by
    rw [div_mul_eq_mul_div, le_div_iff₀ hpow]
    exact_mod_cast hlow
  have hhigh : digitsValue (x.fraction.getD []) / 10 ^ (x.fraction.getD []).length * 10 ^ precision <
      (digitsValue (x.decimals precision) : ℚ) + 1 := by
    rw [div_mul_eq_mul_div, div_lt_iff₀ hpow]
    exact_mod_cast hhigh
  rw [value_eq hsign hexp, scaledValue, scale_eq hp, add_mul]
  push_cast
  constructor <;> linarith

/-- A plain numeral is read as long as it fits. -/
theorem readable_iff_value (hsign : x.sign ≠ some .minus) (hexp : x.exponent = none) (hp : precision ≤ 18)
    (hpoint : ∀ ds, x.fraction = some ds → 0 < precision ∧ (x.sign = none ∨ x.whole ≠ [])) :
    Readable x precision ↔ x.value * 10 ^ precision < 2 ^ 63 := by
  obtain ⟨hlow, hhigh⟩ := scaledValue_bounds hsign hexp hp
  constructor
  · intro h
    have hlt : scaledValue x precision + 1 ≤ 2 ^ 63 := h.sum.2
    exact lt_of_lt_of_le hhigh (by exact_mod_cast hlt)
  · intro hlt
    have hrange : scaledValue x precision < 2 ^ 63 := by
      have : (scaledValue x precision : ℚ) < 2 ^ 63 := lt_of_le_of_lt hlow hlt
      exact_mod_cast this
    have hscaled : scaledValue x precision =
        digitsValue x.whole * scale precision + digitsValue (x.decimals precision) := rfl
    have hwhole : (digitsValue x.whole : Int) ≤ digitsValue x.whole * scale precision := by
      rw [scale_eq hp]
      exact le_mul_of_one_le_right (by positivity) (one_le_pow₀ (by norm_num))
    exact ⟨Or.inl hexp, hpoint, by omega, by omega, ⟨by omega, by omega⟩, ⟨by omega, by omega⟩⟩

/-- It is kept when besides at least one unit of the precision is left. -/
theorem kept_iff_value (hsign : x.sign ≠ some .minus) (hexp : x.exponent = none) (hp : precision ≤ 18)
    (hpoint : ∀ ds, x.fraction = some ds → 0 < precision ∧ (x.sign = none ∨ x.whole ≠ [])) :
    Kept x precision ↔ 1 ≤ x.value * 10 ^ precision ∧ x.value * 10 ^ precision < 2 ^ 63 := by
  have hread := readable_iff_value hsign hexp hp hpoint
  obtain ⟨hlow, hhigh⟩ := scaledValue_bounds hsign hexp hp
  have hnonneg : 0 ≤ scaledValue x precision := by
    rw [scaledValue, scale_eq hp]
    positivity
  have hone : scaledValue x precision ≠ 0 ↔ 1 ≤ x.value * 10 ^ precision := by
    constructor
    · intro hne
      have hpos : 1 ≤ scaledValue x precision := by omega
      exact le_trans (by exact_mod_cast hpos) hlow
    · intro hone hzero
      rw [hzero] at hhigh
      norm_num at hhigh
      linarith
  exact ⟨fun h => ⟨hone.mp h.ne_zero, hread.mp h.readable⟩, fun h => ⟨hread.mpr h.2, hone.mpr h.1⟩⟩

/-! ## Numerals within the precision -/

/-- What an exchange sends: digits, maybe a point with digits on both sides and not more decimals than the
    precision, and a value that fits. -/
structure InRange (x : Numeral) (precision : Nat) : Prop where
  unsigned  : x.sign = none
  plain     : x.exponent = none
  whole     : x.whole ≠ []
  decimals  : ∀ ds, x.fraction = some ds → ds ≠ [] ∧ ds.length ≤ precision
  fits      : x.value * 10 ^ precision < 2 ^ 63

/-- The value in units of the precision. -/
def units (precision : Nat) (x : Numeral) : Int := ⌊x.value * 10 ^ precision⌋

/-- **Within the precision, what is read is the value.** -/
theorem InRange.parseToScaledOrDefault (h : InRange x precision) (hp : precision ≤ 18) :
    parseToScaledOrDefault x.text precision = units precision x := by
  have hsign : x.sign ≠ some .minus := by
    rw [h.unsigned]
    exact (Option.some_ne_none _).symm
  have hpoint : ∀ ds, x.fraction = some ds → 0 < precision ∧ (x.sign = none ∨ x.whole ≠ []) := fun ds hds =>
    ⟨Nat.lt_of_lt_of_le (List.length_pos_iff.mpr (h.decimals ds hds).1) (h.decimals ds hds).2, Or.inl h.unsigned⟩
  have hread := (readable_iff_value hsign h.plain hp hpoint).mpr h.fits
  rw [Crypto.parseToScaledOrDefault, hread.read hsign, Option.getD_some]
  exact (Int.floor_eq_iff.mpr (scaledValue_bounds hsign h.plain hp)).symm

end Crypto
end TradingPlatform
