import Mathlib.Data.Int.Log
import Mathlib.Data.Rat.Floor
import Mathlib.Tactic.FieldSimp
import Mathlib.Tactic.Linarith
import Mathlib.Tactic.Positivity
import Mathlib.Tactic.Ring

/-!
# `Library.Rounding` — rounding to binary floating-point numbers

A format has a precision and a least exponent; its numbers are the multiples `m * 2 ^ e` of powers of two with few
enough digits in `m`. A rational number is rounded to the nearest of them, to the even one of two that are as near.
There is no greatest exponent here: overflow is left to the user.

Contents:
* `nearest` — rounding to an integer: its error, and that it is monotone and odd;
* `Format.round` — rounding to a format: exact on its numbers (`round_eq_self`), monotone (`round_mono`), odd
  (`round_neg`), and within half a unit in the last place (`abs_round_sub_le`);
* `Format.slack` — what a rounding costs below a bound (`round_le_add_slack`), and a division that is multiplied back
  (`round_mul_round_div_le`).
-/

namespace Rounding

/-! ## Integers -/

/-- The nearest integer, half to even. -/
def nearest (x : ℚ) : ℤ :=
  if x - ⌊x⌋ < 1 / 2 then ⌊x⌋
  else if 1 / 2 < x - ⌊x⌋ then ⌊x⌋ + 1
  else ⌊x⌋ + ⌊x⌋ % 2

@[simp] theorem nearest_intCast (n : ℤ) : nearest (n : ℚ) = n := by
  unfold nearest
  rw [Int.floor_intCast, sub_self, if_pos (by norm_num)]

/-- Where it lies, and which way a half goes. -/
theorem nearest_spec (x : ℚ) :
    (nearest x : ℚ) - 1 / 2 ≤ x ∧ x ≤ nearest x + 1 / 2 ∧
      (x = (nearest x : ℚ) - 1 / 2 ∨ x = nearest x + 1 / 2 → nearest x % 2 = 0) := by
  have hlo := Int.floor_le x
  have hhi := Int.lt_floor_add_one x
  unfold nearest
  split_ifs with hbelow habove
  · refine ⟨by linarith, by linarith, ?_⟩
    rintro (h | h) <;> linarith
  · push_cast
    refine ⟨by linarith, by linarith, ?_⟩
    rintro (h | h) <;> linarith
  · -- half way between two integers
    have hhalf : x = ⌊x⌋ + 1 / 2 := by linarith [le_antisymm (not_lt.mp habove) (not_lt.mp hbelow)]
    rcases Int.emod_two_eq_zero_or_one ⌊x⌋ with heven | hodd
    · rw [heven, add_zero]
      exact ⟨by linarith, hhalf.le, fun _ => heven⟩
    · rw [hodd]
      push_cast
      exact ⟨by linarith, by linarith, fun _ => by omega⟩

theorem abs_nearest_sub_le (x : ℚ) : |(nearest x : ℚ) - x| ≤ 1 / 2 := by
  obtain ⟨hlo, hhi, -⟩ := nearest_spec x
  rw [abs_le]
  constructor <;> linarith

/-- Nothing else lies there. -/
theorem nearest_unique {x : ℚ} {n : ℤ} (hlo : (n : ℚ) - 1 / 2 ≤ x) (hhi : x ≤ n + 1 / 2)
    (heven : x = (n : ℚ) - 1 / 2 ∨ x = n + 1 / 2 → n % 2 = 0) : nearest x = n := by
  obtain ⟨hlo', hhi', heven'⟩ := nearest_spec x
  generalize nearest x = m at hlo' hhi' heven'
  have hle : (m : ℚ) ≤ n + 1 := by linarith
  have hge : (n : ℚ) ≤ m + 1 := by linarith
  norm_cast at hle hge
  rcases lt_trichotomy m n with hlt | heq | hgt
  · -- one apart, and both even
    have hnext : (n : ℚ) = m + 1 := by exact_mod_cast (by omega : n = m + 1)
    have hm := heven' (.inr (by linarith))
    have hn := heven (.inl (by linarith))
    omega
  · exact heq
  · have hnext : (m : ℚ) = n + 1 := by exact_mod_cast (by omega : m = n + 1)
    have hm := heven' (.inl (by linarith))
    have hn := heven (.inr (by linarith))
    omega

theorem nearest_neg (x : ℚ) : nearest (-x) = -nearest x := by
  obtain ⟨hlo, hhi, heven⟩ := nearest_spec x
  refine nearest_unique ?_ ?_ ?_ <;> push_cast
  · linarith
  · linarith
  · rintro (h | h)
    · have := heven (.inr (by linarith))
      omega
    · have := heven (.inl (by linarith))
      omega

theorem nearest_mono {x y : ℚ} (h : x ≤ y) : nearest x ≤ nearest y := by
  obtain ⟨hlo, -, heven⟩ := nearest_spec x
  obtain ⟨-, hhi, heven'⟩ := nearest_spec y
  by_contra hlt
  have hnext : (nearest y : ℚ) + 1 ≤ nearest x := by exact_mod_cast (by omega : nearest y + 1 ≤ nearest x)
  -- both are half way, between the same two integers
  have hx := heven (.inl (by linarith))
  have hy := heven' (.inr (by linarith))
  have hsame : nearest x = nearest y + 1 := by
    have hle : (nearest x : ℚ) ≤ nearest y + 1 := by linarith
    exact le_antisymm (by exact_mod_cast hle) (by exact_mod_cast hnext)
  omega

/-! ## Formats -/

structure Format where
  precision : ℕ
  /-- the exponent of the least positive number -/
  least     : ℤ
  pos       : 0 < precision

namespace Format

variable (format : Format)

/-- The exponent of the last place of a number of this size. -/
def exponent (x : ℚ) : ℤ := max (Int.log 2 |x| + 1 - format.precision) format.least

/-- The nearest number of the format. -/
def round (x : ℚ) : ℚ := nearest (x / 2 ^ format.exponent x) * 2 ^ format.exponent x

/-- The numbers of the format. -/
def Representable (x : ℚ) : Prop := ∃ (m e : ℤ), |m| < 2 ^ format.precision ∧ format.least ≤ e ∧ x = m * 2 ^ e

variable {format} {x y : ℚ}

theorem two_zpow_pos (e : ℤ) : (0 : ℚ) < 2 ^ e := zpow_pos (by norm_num) e

theorem zpow_le_abs (h : x ≠ 0) : (2 : ℚ) ^ Int.log 2 |x| ≤ |x| := by
  exact_mod_cast Int.zpow_log_le_self (by norm_num) (abs_pos.mpr h)

theorem abs_lt_zpow (x : ℚ) : |x| < (2 : ℚ) ^ (Int.log 2 |x| + 1) := by
  exact_mod_cast Int.lt_zpow_succ_log_self (by norm_num) |x|

@[simp] theorem round_zero : format.round 0 = 0 := by
  unfold round
  rw [zero_div, ← Int.cast_zero, nearest_intCast, Int.cast_zero, zero_mul]

theorem exponent_neg (x : ℚ) : format.exponent (-x) = format.exponent x := by
  unfold exponent
  rw [abs_neg]

theorem round_neg (x : ℚ) : format.round (-x) = -format.round x := by
  unfold round
  rw [exponent_neg, neg_div, nearest_neg, Int.cast_neg, neg_mul]

/-! ### The error -/

/-- **Half a unit in the last place.** -/
theorem abs_round_sub_le (x : ℚ) : |format.round x - x| ≤ 2 ^ format.exponent x / 2 := by
  have hpos := two_zpow_pos (format.exponent x)
  have herror := abs_nearest_sub_le (x / 2 ^ format.exponent x)
  have hscaled : format.round x - x =
      (nearest (x / 2 ^ format.exponent x) - x / 2 ^ format.exponent x) * 2 ^ format.exponent x := by
    unfold round
    rw [sub_mul, div_mul_cancel₀ x hpos.ne']
  rw [hscaled, abs_mul, abs_of_pos hpos]
  calc _ ≤ 1 / 2 * 2 ^ format.exponent x := mul_le_mul_of_nonneg_right herror hpos.le
    _ = _ := by ring

/-- What a rounding adds at most to a number no larger than `bound`. -/
def slack (format : Format) (bound : ℚ) : ℚ := bound / 2 ^ format.precision + 2 ^ format.least / 2

theorem slack_nonneg {bound : ℚ} (h : 0 ≤ bound) : 0 ≤ format.slack bound := by
  unfold slack
  have := two_zpow_pos format.least
  positivity

theorem abs_round_sub_le_slack {bound : ℚ} (h : |x| ≤ bound) : |format.round x - x| ≤ format.slack bound := by
  rcases eq_or_ne x 0 with rfl | hne
  · rw [round_zero, sub_zero, abs_zero]
    exact slack_nonneg ((abs_nonneg _).trans h)
  refine (abs_round_sub_le x).trans ?_
  have hleast := two_zpow_pos format.least
  unfold exponent slack
  rcases max_choice (Int.log 2 |x| + 1 - format.precision) format.least with heq | heq <;> rw [heq]
  · have hlog := zpow_le_abs hne
    have hexp : (2 : ℚ) ^ (Int.log 2 |x| + 1 - format.precision) / 2 =
        2 ^ Int.log 2 |x| / 2 ^ format.precision := by
      rw [zpow_sub₀ (by norm_num), zpow_add₀ (by norm_num), zpow_one, zpow_natCast]
      ring
    rw [hexp]
    have hdiv : (2 : ℚ) ^ Int.log 2 |x| / 2 ^ format.precision ≤ bound / 2 ^ format.precision := by
      gcongr
      exact hlog.trans h
    linarith
  · have hbound : 0 ≤ bound / 2 ^ format.precision := by
      have := (abs_nonneg x).trans h
      positivity
    linarith

theorem round_le_add_slack {bound : ℚ} (h : |x| ≤ bound) : format.round x ≤ x + format.slack bound := by
  obtain ⟨-, hle⟩ := abs_le.mp (@abs_round_sub_le_slack format _ _ h)
  linarith

/-! ### Numbers of the format -/

theorem nearest_mul_zpow {m : ℤ} {e e' : ℤ} (h : e' ≤ e) :
    (nearest ((m : ℚ) * 2 ^ e / 2 ^ e') : ℚ) * 2 ^ e' = m * 2 ^ e := by
  have hpos := two_zpow_pos e'
  obtain ⟨k, hk⟩ := Int.eq_ofNat_of_zero_le (Int.sub_nonneg_of_le h)
  have hint : (m : ℚ) * 2 ^ e / 2 ^ e' = ((m * 2 ^ k : ℤ) : ℚ) := by
    rw [mul_div_assoc, ← zpow_sub₀ (by norm_num), hk, zpow_natCast]
    push_cast
    rfl
  rw [hint, nearest_intCast, ← hint, div_mul_cancel₀ _ hpos.ne']

/-- The last place of a number of the format lies within its digits. -/
theorem exponent_le {m e : ℤ} (hm : |m| < 2 ^ format.precision) (he : format.least ≤ e) (hne : m ≠ 0) :
    format.exponent (m * 2 ^ e) ≤ e := by
  refine max_le ?_ he
  have hx : (m : ℚ) * 2 ^ e ≠ 0 := mul_ne_zero (by exact_mod_cast hne) (two_zpow_pos e).ne'
  have hlog := zpow_le_abs hx
  have habs : |(m : ℚ) * 2 ^ e| < 2 ^ ((format.precision : ℤ) + e) := by
    rw [abs_mul, abs_of_pos (two_zpow_pos e), zpow_add₀ (by norm_num), zpow_natCast]
    exact mul_lt_mul_of_pos_right (by exact_mod_cast hm) (two_zpow_pos e)
  have hlt := (zpow_lt_zpow_iff_right₀ (by norm_num : (1 : ℚ) < 2)).mp (hlog.trans_lt habs)
  omega

/-- **Numbers of the format** are rounded to themselves. -/
theorem round_eq_self (h : format.Representable x) : format.round x = x := by
  obtain ⟨m, e, hm, he, rfl⟩ := h
  rcases eq_or_ne m 0 with rfl | hne
  · rw [Int.cast_zero, zero_mul, round_zero]
  · exact nearest_mul_zpow (exponent_le hm he hne)

theorem Representable.of_le {m e : ℤ} (hm : |m| ≤ 2 ^ format.precision) (he : format.least ≤ e) :
    format.Representable (m * 2 ^ e) := by
  rcases hm.lt_or_eq with hlt | heq
  · exact ⟨m, e, hlt, he, rfl⟩
  · -- a power of two has few digits
    have hpos := format.pos
    have hone : (1 : ℤ) < 2 ^ format.precision := one_lt_pow₀ (by norm_num) hpos.ne'
    have hexp : (2 : ℚ) ^ (e + format.precision) = 2 ^ format.precision * 2 ^ e := by
      rw [zpow_add₀ (by norm_num), zpow_natCast]
      ring
    rcases (abs_eq (by positivity)).mp heq with rfl | rfl
    · refine ⟨1, e + format.precision, by rwa [abs_one], by omega, ?_⟩
      rw [hexp]
      push_cast
      ring
    · refine ⟨-1, e + format.precision, by rwa [abs_neg, abs_one], by omega, ?_⟩
      rw [hexp]
      push_cast
      ring

/-- A number has as many digits before its last place as the precision allows. -/
theorem abs_nearest_le (x : ℚ) : |nearest (x / 2 ^ format.exponent x)| ≤ 2 ^ format.precision := by
  have hpos := two_zpow_pos (format.exponent x)
  have hlt : |x / 2 ^ format.exponent x| ≤ ((2 ^ format.precision : ℤ) : ℚ) := by
    rw [abs_div, abs_of_pos hpos, div_le_iff₀ hpos]
    refine (abs_lt_zpow x).le.trans ?_
    push_cast
    rw [← zpow_natCast, ← zpow_add₀ (by norm_num)]
    refine zpow_le_zpow_right₀ (by norm_num) ?_
    have := le_max_left (Int.log 2 |x| + 1 - format.precision) format.least
    unfold exponent
    omega
  obtain ⟨hlo, hhi⟩ := abs_le.mp hlt
  rw [abs_le]
  constructor
  · have h := nearest_mono hlo
    rwa [← Int.cast_neg, nearest_intCast] at h
  · have h := nearest_mono hhi
    rwa [nearest_intCast] at h

theorem representable_round (x : ℚ) : format.Representable (format.round x) :=
  Representable.of_le (abs_nearest_le x) (le_max_right _ _)

@[simp] theorem round_round (x : ℚ) : format.round (format.round x) = format.round x :=
  round_eq_self (representable_round x)

theorem round_eq_self_iff : format.round x = x ↔ format.Representable x :=
  ⟨fun h => h ▸ representable_round x, round_eq_self⟩

/-! ### Monotonicity -/

theorem round_le_zpow {k : ℤ} (hk : format.exponent x ≤ k) (h : x ≤ 2 ^ k) : format.round x ≤ 2 ^ k := by
  have hpos := two_zpow_pos (format.exponent x)
  have hmono := nearest_mono (div_le_div_of_nonneg_right h hpos.le)
  have hpow := nearest_mul_zpow (m := 1) hk
  rw [Int.cast_one, one_mul] at hpow
  calc format.round x ≤ nearest ((2 : ℚ) ^ k / 2 ^ format.exponent x) * 2 ^ format.exponent x :=
        mul_le_mul_of_nonneg_right (by exact_mod_cast hmono) hpos.le
    _ = 2 ^ k := hpow

theorem zpow_le_round {k : ℤ} (hk : format.exponent x ≤ k) (h : 2 ^ k ≤ x) : 2 ^ k ≤ format.round x := by
  have hpos := two_zpow_pos (format.exponent x)
  have hmono := nearest_mono (div_le_div_of_nonneg_right h hpos.le)
  have hpow := nearest_mul_zpow (m := 1) hk
  rw [Int.cast_one, one_mul] at hpow
  calc (2 : ℚ) ^ k = nearest ((2 : ℚ) ^ k / 2 ^ format.exponent x) * 2 ^ format.exponent x := hpow.symm
    _ ≤ format.round x := mul_le_mul_of_nonneg_right (by exact_mod_cast hmono) hpos.le

theorem round_nonneg (h : 0 ≤ x) : 0 ≤ format.round x := by
  have hpos := two_zpow_pos (format.exponent x)
  have hmono := nearest_mono (div_nonneg h hpos.le)
  rw [← Int.cast_zero, nearest_intCast] at hmono
  exact mul_nonneg (by exact_mod_cast hmono) hpos.le

theorem round_mono_of_pos (hx : 0 < x) (h : x ≤ y) : format.round x ≤ format.round y := by
  have hlog : Int.log 2 |x| ≤ Int.log 2 |y| := by
    rw [abs_of_pos hx, abs_of_pos (hx.trans_le h)]
    exact Int.log_mono_right hx h
  have hle : format.exponent x ≤ format.exponent y := max_le_max_right format.least (by omega)
  rcases hle.lt_or_eq with hlt | heq
  · -- the power of two between them
    have hpos := format.pos
    have hy : format.exponent y = Int.log 2 |y| + 1 - format.precision := by
      refine (max_choice _ _).resolve_right fun hleast => ?_
      have := le_max_right (Int.log 2 |x| + 1 - format.precision) format.least
      unfold exponent at hlt
      omega
    have hx' : Int.log 2 |x| + 1 - format.precision ≤ format.exponent x := le_max_left _ _
    have hbelow : x ≤ 2 ^ Int.log 2 |y| := by
      have hlt := abs_lt_zpow x
      rw [abs_of_pos hx] at hlt
      refine hlt.le.trans (zpow_le_zpow_right₀ (by norm_num) ?_)
      rw [← abs_of_pos hx]
      omega
    have habove : 2 ^ Int.log 2 |y| ≤ y := by
      have hle := zpow_le_abs (hx.trans_le h).ne'
      rwa [abs_of_pos (hx.trans_le h)] at hle ⊢
    exact (round_le_zpow (by omega) hbelow).trans (zpow_le_round (by omega) habove)
  · have hpos := two_zpow_pos (format.exponent y)
    unfold round
    rw [heq]
    exact mul_le_mul_of_nonneg_right (by exact_mod_cast nearest_mono (div_le_div_of_nonneg_right h hpos.le)) hpos.le

theorem round_mono (h : x ≤ y) : format.round x ≤ format.round y := by
  rcases lt_or_ge 0 x with hx | hx
  · exact round_mono_of_pos hx h
  · rcases lt_or_ge y 0 with hy | hy
    · have hneg := @round_mono_of_pos format _ _ (neg_pos.mpr hy) (neg_le_neg h)
      rw [round_neg, round_neg] at hneg
      exact neg_le_neg_iff.mp hneg
    · have hx' := @round_nonneg format _ (neg_nonneg.mpr hx)
      rw [round_neg] at hx'
      exact (neg_nonneg.mp hx').trans (round_nonneg hy)

/-- What is not rounded to zero keeps its sign. -/
theorem round_pos_iff (h : format.round x ≠ 0) : 0 < format.round x ↔ 0 < x := by
  constructor
  · intro hpos
    by_contra hx
    have hle := @round_mono format _ _ (not_lt.mp hx)
    rw [round_zero] at hle
    exact absurd hpos (not_lt.mpr hle)
  · intro hx
    exact lt_of_le_of_ne (round_nonneg hx.le) h.symm

theorem abs_round (x : ℚ) : |format.round x| = format.round |x| := by
  rcases le_total 0 x with hx | hx
  · rw [abs_of_nonneg hx, abs_of_nonneg (round_nonneg hx)]
  · have hneg := @round_nonneg format _ (neg_nonneg.mpr hx)
    rw [round_neg] at hneg
    rw [abs_of_nonpos hx, abs_of_nonpos (neg_nonneg.mp hneg), round_neg]

/-! ### Several roundings -/

/-- **Dividing** by a number and multiplying by it again costs two roundings, and what is lost of small quotients. -/
theorem round_mul_round_div_le {n bound : ℚ} (hn : 0 < n) (hx : 0 ≤ x) (hbound : x ≤ bound)
    (h : x + format.slack bound + n * format.slack 0 ≤ bound) :
    format.round (n * format.round (x / n)) ≤ x + 2 * format.slack bound + n * format.slack 0 := by
  have hquotient : 0 ≤ x / n := div_nonneg hx hn.le
  have hslack : n * format.slack (x / n) ≤ format.slack bound + n * format.slack 0 := by
    have hleast := two_zpow_pos format.least
    have hscaled : n * format.slack (x / n) = x / 2 ^ format.precision + n * format.slack 0 := by
      unfold slack
      field_simp
      ring
    have hle : x / 2 ^ format.precision ≤ bound / 2 ^ format.precision := by gcongr
    rw [hscaled]
    unfold slack
    linarith
  have hproduct : n * format.round (x / n) ≤ x + format.slack bound + n * format.slack 0 := by
    calc n * format.round (x / n) ≤ n * (x / n + format.slack (x / n)) :=
          mul_le_mul_of_nonneg_left (round_le_add_slack (abs_of_nonneg hquotient).le) hn.le
      _ = x + n * format.slack (x / n) := by rw [mul_add, mul_div_cancel₀ _ hn.ne']
      _ ≤ _ := by linarith
  have hnonneg : 0 ≤ n * format.round (x / n) := mul_nonneg hn.le (round_nonneg hquotient)
  have hrounded : format.round (n * format.round (x / n)) ≤ n * format.round (x / n) + format.slack bound :=
    round_le_add_slack ((abs_of_nonneg hnonneg).trans_le (hproduct.trans h))
  linarith

end Format
end Rounding
