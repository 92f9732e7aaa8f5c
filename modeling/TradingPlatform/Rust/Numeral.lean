import TradingPlatform.Rust.Float
import Mathlib.Data.Rat.Floor
import Mathlib.Tactic.Positivity
import Mathlib.Tactic.Linarith

/-!
# `Rust.Numeral` — decimal numerals, and integers parsed from text

A numeral is a sign, digits with at most one point among them, and an exponent. `text` writes it down and `value`
says what it denotes. `parseI64` is `str::parse::<i64>()`: it reads a sign and digits, and nothing else.
-/

namespace TradingPlatform
namespace Rust

/-! ## Digits -/

/-- The last decimal digit. -/
def digit (n : Nat) : Fin 10 := ⟨n % 10, Nat.mod_lt n (Nat.zero_lt_succ 9)⟩

def digitChar (d : Fin 10) : Char := Char.ofNat ('0'.toNat + d)

def digitsText (ds : List (Fin 10)) : List Char := ds.map digitChar

/-- The number some digits are, the first one leading. -/
def digitsValue (ds : List (Fin 10)) : Nat := ofDigits (ds.map Fin.val)

theorem isDigit_digitChar (d : Fin 10) : (digitChar d).isDigit = true := by
  revert d
  decide

theorem toNat_digitChar (d : Fin 10) : (digitChar d).toNat - '0'.toNat = d := by
  revert d
  decide

/-- What holds of no digit is not among the characters of some. -/
theorem notMem_digitsText {c : Char} (hc : c.isDigit = false) (ds : List (Fin 10)) : c ∉ digitsText ds := by
  intro hmem
  obtain ⟨d, -, rfl⟩ := List.mem_map.mp hmem
  rw [isDigit_digitChar] at hc
  cases hc

@[simp] theorem length_digitsText (ds : List (Fin 10)) : (digitsText ds).length = ds.length := List.length_map _

theorem digitsText_append (ds es : List (Fin 10)) : digitsText (ds ++ es) = digitsText ds ++ digitsText es :=
  List.map_append

theorem digitsText_take (n : Nat) (ds : List (Fin 10)) : digitsText (ds.take n) = (digitsText ds).take n :=
  List.map_take

theorem digitsText_replicate (n : Nat) : digitsText (List.replicate n 0) = List.replicate n '0' :=
  List.map_replicate

theorem digitsValue_snoc (ds : List (Fin 10)) (d : Fin 10) : digitsValue (ds ++ [d]) = 10 * digitsValue ds + d := by
  simp [digitsValue, ofDigits, List.foldl_append]

theorem digitsValue_append (ds es : List (Fin 10)) :
    digitsValue (ds ++ es) = digitsValue ds * 10 ^ es.length + digitsValue es := by
  induction es using List.reverseRecOn with
  | nil => simp [digitsValue, ofDigits]
  | append_singleton es e ih =>
      rw [← List.append_assoc, digitsValue_snoc, digitsValue_snoc, ih, List.length_append, List.length_singleton,
        pow_succ]
      ring

theorem digitsValue_lt (ds : List (Fin 10)) : digitsValue ds < 10 ^ ds.length := by
  induction ds using List.reverseRecOn with
  | nil => exact Nat.one_pos
  | append_singleton ds d ih =>
      rw [digitsValue_snoc, List.length_append, List.length_singleton, pow_succ]
      have := d.isLt
      omega

theorem digitsValue_replicate_zero (n : Nat) : digitsValue (List.replicate n 0) = 0 := by
  induction n with
  | zero => rfl
  | succ n ih => rw [List.replicate_succ', digitsValue_snoc, ih]; rfl

/-! ## Integers -/

/-- Digits only, at least one. -/
def parseDigits (neg : Bool) (ds : List Char) : Option Int :=
  if ds = [] ∨ ¬ ds.all Char.isDigit then none
  else
    let n : Int := ofDigits (ds.map fun c => c.toNat - '0'.toNat)
    let n := if neg then -n else n
    if InI64 n then some n else none

/-- `s.parse::<i64>()`. -/
def parseI64 (cs : List Char) : Option Int := parseDigits (spanSign cs).1 (spanSign cs).2

/-- Digits have no sign in front. -/
theorem spanSign_digits {ds : List (Fin 10)} (h : ds ≠ []) (rest : List Char) :
    spanSign (digitsText ds ++ rest) = (false, digitsText ds ++ rest) := by
  have hsign : ∀ d : Fin 10, digitChar d ≠ '-' ∧ digitChar d ≠ '+' := by decide
  cases ds with
  | nil => exact absurd rfl h
  | cons d ds =>
      unfold spanSign
      split
      next heq => exact absurd (List.cons.inj heq).1 (hsign d).1
      next heq => exact absurd (List.cons.inj heq).1 (hsign d).2
      next => rfl

theorem spanSign_digitsText (ds : List (Fin 10)) : spanSign (digitsText ds) = (false, digitsText ds) := by
  cases ds with
  | nil => rfl
  | cons d ds =>
      rw [← List.append_nil (digitsText (d :: ds))]
      exact spanSign_digits (List.cons_ne_nil d ds) []

theorem parseDigits_text (neg : Bool) {ds : List (Fin 10)} (hds : ds ≠ []) :
    parseDigits neg (digitsText ds) =
      let n : Int := if neg then -digitsValue ds else digitsValue ds
      if InI64 n then some n else none := by
  have hall : (digitsText ds).all Char.isDigit = true := by
    refine List.all_eq_true.mpr fun c hc => ?_
    obtain ⟨d, -, rfl⟩ := List.mem_map.mp hc
    exact isDigit_digitChar d
  have hvalue : (digitsText ds).map (fun c => c.toNat - '0'.toNat) = ds.map Fin.val := by
    rw [digitsText, List.map_map]
    exact List.map_congr_left fun d _ => toNat_digitChar d
  have hne : digitsText ds ≠ [] := by simpa [digitsText] using hds
  unfold parseDigits
  rw [if_neg (by simp [hne, hall]), hvalue]
  rfl

theorem parseDigits_digitsText {ds : List (Fin 10)} (hds : ds ≠ []) :
    parseDigits false (digitsText ds) = if digitsValue ds < 2 ^ 63 then some (digitsValue ds : Int) else none := by
  have hrange : InI64 (digitsValue ds : Int) ↔ digitsValue ds < 2 ^ 63 := by
    unfold InI64
    omega
  rw [parseDigits_text false hds]
  simp only [← hrange]
  rfl

/-- **Digits are read as their value**, with or without a plus in front. -/
theorem parseI64_digitsText {ds : List (Fin 10)} (hds : ds ≠ []) :
    parseI64 (digitsText ds) = if digitsValue ds < 2 ^ 63 then some (digitsValue ds : Int) else none := by
  rw [parseI64, spanSign_digitsText]
  exact parseDigits_digitsText hds

theorem parseI64_plus {ds : List (Fin 10)} (hds : ds ≠ []) :
    parseI64 ('+' :: digitsText ds) = if digitsValue ds < 2 ^ 63 then some (digitsValue ds : Int) else none :=
  parseDigits_digitsText hds

/-- Digits are the text of what they spell. -/
theorem exists_digitsText {cs : List Char} (h : ∀ c ∈ cs, c.isDigit = true) : ∃ ds, cs = digitsText ds := by
  induction cs with
  | nil => exact ⟨[], rfl⟩
  | cons c cs ih =>
      obtain ⟨ds, hds⟩ := ih fun c hc => h c (List.mem_cons_of_mem _ hc)
      obtain ⟨hlow, hhigh⟩ : 48 ≤ c.toNat ∧ c.toNat ≤ 57 := by
        have hdigit := h c List.mem_cons_self
        simp only [Char.isDigit, Bool.and_eq_true, decide_eq_true_eq, UInt32.le_iff_toNat_le] at hdigit
        exact hdigit
      refine ⟨⟨c.toNat - 48, by omega⟩ :: ds, ?_⟩
      have hchar : Char.ofNat (48 + (c.toNat - 48)) = c := by
        rw [Nat.add_sub_cancel' hlow, Char.ofNat_toNat]
      rw [hds]
      exact congrArg (· :: digitsText ds) hchar.symm

/-- A character that is no digit and no sign is an error, wherever it stands. -/
theorem parseI64_eq_none {cs : List Char} {c : Char} (hc : c ∈ cs) (hdigit : c.isDigit = false)
    (hsign : c ≠ '-' ∧ c ≠ '+') : parseI64 cs = none := by
  have hmem : c ∈ (spanSign cs).2 := by
    unfold spanSign
    split
    next => exact (List.mem_cons.mp hc).resolve_left hsign.1
    next => exact (List.mem_cons.mp hc).resolve_left hsign.2
    next => exact hc
  have hall : (spanSign cs).2.all Char.isDigit = false :=
    List.all_eq_false.mpr ⟨c, hmem, by rw [hdigit]; exact Bool.false_ne_true⟩
  rw [parseI64, parseDigits, if_pos (Or.inr (by rw [hall]; exact Bool.false_ne_true))]

/-! ## Numerals -/

inductive Sign where
  | plus
  | minus
deriving DecidableEq

def Sign.text : Option Sign → List Char
  | none        => []
  | some .plus  => ['+']
  | some .minus => ['-']

def Sign.apply : Option Sign → ℚ → ℚ
  | some .minus, x => -x
  | _, x           => x

theorem spanSign_spec (cs : List Char) : ∃ sign, cs = Sign.text sign ++ (spanSign cs).2 := by
  unfold spanSign
  split
  · exact ⟨some .minus, rfl⟩
  · exact ⟨some .plus, rfl⟩
  · exact ⟨none, rfl⟩

/-- **No integer is read from anything else** than a sign or none and digits. -/
theorem exists_text_of_parseI64 {cs : List Char} (h : parseI64 cs ≠ none) :
    ∃ sign ds, ds ≠ [] ∧ cs = Sign.text sign ++ digitsText ds := by
  obtain ⟨sign, hsign⟩ := spanSign_spec cs
  unfold parseI64 parseDigits at h
  split at h
  next => exact absurd rfl h
  next hshape =>
    obtain ⟨hne, hall⟩ := not_or.mp hshape
    obtain ⟨ds, hds⟩ := exists_digitsText (List.all_eq_true.mp (not_not.mp hall))
    refine ⟨sign, ds, ?_, by rw [← hds]; exact hsign⟩
    rintro rfl
    exact hne hds

structure Exponent where
  mark      : Char
  sign      : Option Sign
  digits    : List (Fin 10)
  markIsE   : mark = 'e' ∨ mark = 'E'
  hasDigits : digits ≠ []

/-- A numeral without a point has no `fraction`; one that begins or ends with the point has an empty part. -/
structure Numeral where
  sign      : Option Sign
  whole     : List (Fin 10)
  fraction  : Option (List (Fin 10))
  exponent  : Option Exponent
  hasDigits : whole ++ fraction.getD [] ≠ []

namespace Numeral

def fractionText : Option (List (Fin 10)) → List Char
  | none    => []
  | some ds => '.' :: digitsText ds

def exponentText : Option Exponent → List Char
  | none   => []
  | some e => e.mark :: (Sign.text e.sign ++ digitsText e.digits)

def text (x : Numeral) : String :=
  String.ofList (Sign.text x.sign ++ digitsText x.whole ++ fractionText x.fraction ++ exponentText x.exponent)

def exponentValue : Option Exponent → ℤ
  | none   => 0
  | some e => if e.sign = some .minus then -(digitsValue e.digits : ℤ) else digitsValue e.digits

/-- The digits on both sides of the point, the point put back, sign and exponent applied. -/
def value (x : Numeral) : ℚ :=
  Sign.apply x.sign (digitsValue (x.whole ++ x.fraction.getD []) / 10 ^ (x.fraction.getD []).length) *
    10 ^ exponentValue x.exponent

/-- A numeral with a minus is not positive. -/
theorem sign_ne_minus {x : Numeral} (h : 0 < x.value) : x.sign ≠ some .minus := by
  intro hsign
  rw [value, hsign] at h
  have hpos : (0 : ℚ) ≤ digitsValue (x.whole ++ x.fraction.getD []) / 10 ^ (x.fraction.getD []).length := by
    positivity
  have hexp : (0 : ℚ) < 10 ^ exponentValue x.exponent := zpow_pos (by norm_num) _
  have := mul_nonneg hpos hexp.le
  simp only [Sign.apply, neg_mul] at h
  linarith

/-- The first `n` digits behind the point, zeros where there are none. -/
def decimals (x : Numeral) (n : Nat) : List (Fin 10) :=
  (x.fraction.getD []).take n ++ List.replicate (n - (x.fraction.getD []).length) 0

@[simp] theorem length_decimals (x : Numeral) (n : Nat) : (x.decimals n).length = n := by
  rw [decimals, List.length_append, List.length_take, List.length_replicate]
  omega

end Numeral
end Rust
end TradingPlatform
