import TradingPlatform.Crypto.Scaled
import TradingPlatform.Rust.Overflow

/-!
# `Crypto.Parse` — every text and every precision `parse_to_scaled` may see

`Crypto.Scaled` has the parser as it reads ASCII in the release build. Here it is whole: the fraction is cut by
bytes, and the power of ten is computed in either build profile (`parseToScaled_release` goes back). Three questions
are settled: for which numerals the result is the value scaled (`parseToScaled_exact_iff`), for which texts nothing
panics (`parseToScaled_isSome_iff`), and for which nothing but a numeral is read besides (`sound_iff`).
-/

namespace TradingPlatform
namespace Crypto
namespace Parse

open Rust Sender

/-! ## Strings by bytes -/

/-- `s.len()`. -/
def byteLength (cs : List Char) : Nat := (cs.map Char.utf8Size).sum

/-- `s.truncate(n)`: the characters in the first `n` bytes. To cut inside a character panics. -/
def truncate : List Char → Nat → Option (List Char)
  | _, 0           => some []
  | [], _          => some []
  | c :: cs, n + 1 =>
    if c.utf8Size ≤ n + 1 then (truncate cs (n + 1 - c.utf8Size)).map (c :: ·) else none

/-- Between two characters, at either end, or past the end. -/
def AtBoundary (cs : List Char) (n : Nat) : Prop := byteLength cs ≤ n ∨ ∃ k, byteLength (cs.take k) = n

theorem byteLength_cons (c : Char) (cs : List Char) : byteLength (c :: cs) = c.utf8Size + byteLength cs := by
  unfold byteLength
  rw [List.map_cons, List.sum_cons]

/-- Only inside a character nothing can be cut. -/
theorem truncate_isSome_iff (cs : List Char) (n : Nat) : (truncate cs n).isSome ↔ AtBoundary cs n := by
  induction cs generalizing n with
  | nil =>
      refine iff_of_true ?_ (Or.inl (Nat.zero_le n))
      cases n <;> rfl
  | cons c cs ih =>
      cases n with
      | zero => exact iff_of_true rfl (Or.inr ⟨0, rfl⟩)
      | succ n =>
          have hpos := c.utf8Size_pos
          unfold truncate AtBoundary
          rw [byteLength_cons]
          by_cases hfits : c.utf8Size ≤ n + 1
          · rw [if_pos hfits, Option.isSome_map, ih, AtBoundary]
            constructor
            · rintro (hlong | ⟨k, hk⟩)
              · exact Or.inl (by omega)
              · exact Or.inr ⟨k + 1, by rw [List.take_succ_cons, byteLength_cons]; omega⟩
            · rintro (hlong | ⟨k, hk⟩)
              · exact Or.inl (by omega)
              · cases k with
                | zero => cases hk
                | succ k =>
                    rw [List.take_succ_cons, byteLength_cons] at hk
                    exact Or.inr ⟨k, by omega⟩
          · rw [if_neg hfits]
            refine iff_of_false Bool.false_ne_true ?_
            rintro (hlong | ⟨k, hk⟩)
            · omega
            · cases k with
              | zero => cases hk
              | succ k =>
                  rw [List.take_succ_cons, byteLength_cons] at hk
                  omega

/-! ASCII characters are bytes. -/

theorem byteLength_ascii {cs : List Char} (h : ∀ c ∈ cs, c.utf8Size = 1) : byteLength cs = cs.length := by
  induction cs with
  | nil => rfl
  | cons c cs ih =>
      rw [byteLength_cons, h c List.mem_cons_self, ih fun c hc => h c (List.mem_cons_of_mem _ hc), List.length_cons,
        Nat.add_comm]

theorem truncate_ascii {cs : List Char} (h : ∀ c ∈ cs, c.utf8Size = 1) (n : Nat) :
    truncate cs n = some (cs.take n) := by
  induction cs generalizing n with
  | nil => cases n <;> rfl
  | cons c cs ih =>
      cases n with
      | zero => rfl
      | succ n =>
          rw [truncate, h c List.mem_cons_self, if_pos (Nat.le_add_left 1 n), Nat.add_sub_cancel,
            ih fun c hc => h c (List.mem_cons_of_mem _ hc)]
          rfl

theorem utf8Size_digitsText {ds : List (Fin 10)} : ∀ c ∈ digitsText ds, c.utf8Size = 1 := by
  intro c hc
  obtain ⟨d, -, rfl⟩ := List.mem_map.mp hc
  have hsize : ∀ d : Fin 10, (digitChar d).utf8Size = 1 := by decide
  exact hsize d

/-! ## The parser -/

/-- Pad or truncate decimal part to match precision. -/
def fitDecimals (decimals : List Char) (precision : Nat) : Option (List Char) :=
  if byteLength decimals < precision then
    some (decimals ++ List.replicate (precision - byteLength decimals) '0')
  else if precision < byteLength decimals then truncate decimals precision
  else some decimals

/-- Parse price/quantity string directly to scaled i64. -/
def parseToScaled (profile : Profile) (value : String) (precision : Nat) : Option (Option Int) :=
  match value.toList.splitOn '.' with
  | [whole] =>
    match parseI64 whole with
    | none => some none
    | some integerPart => do
        let scale ← profile.i64 (10 ^ precision)
        some (checked (integerPart * scale))
  | [whole, decimals] =>
    match parseWhole whole with
    | none => some none
    | some integerPart => do
        let decimalValue ← fitDecimals decimals precision
        match parseI64 decimalValue with
        | none => some none
        | some decimalPart => do
            let scale ← profile.i64 (10 ^ precision)
            some ((checked (integerPart * scale)).bind fun product => checked (product + decimalPart))
  | _ => some none

theorem fitDecimals_ascii {decimals : List Char} (h : ∀ c ∈ decimals, c.utf8Size = 1) (precision : Nat) :
    fitDecimals decimals precision = some (Crypto.fitDecimals decimals precision) := by
  unfold fitDecimals Crypto.fitDecimals
  rw [byteLength_ascii h, truncate_ascii h]
  split
  · rfl
  · split
    · rfl
    · rw [List.take_of_length_le (by omega)]

theorem toList_of_parts {value : String} {whole decimals : List Char}
    (h : value.toList.splitOn '.' = [whole, decimals]) : value.toList = whole ++ '.' :: decimals := by
  have hjoin := @List.intercalate_splitOn Char value.toList _ _ '.'
  rw [h] at hjoin
  rw [← hjoin]
  simp [List.intercalate]

theorem toList_of_part {value : String} {whole : List Char} (h : value.toList.splitOn '.' = [whole]) :
    value.toList = whole := by
  have hjoin := @List.intercalate_splitOn Char value.toList _ _ '.'
  rw [h] at hjoin
  rw [← hjoin]
  simp [List.intercalate]

/-- The parser of `Crypto.Scaled` is the release build on ASCII text. -/
theorem parseToScaled_release {value : String} (h : ∀ c ∈ value.toList, c.utf8Size = 1) (precision : Nat) :
    parseToScaled .release value precision = some (Crypto.parseToScaled value precision) := by
  unfold parseToScaled Crypto.parseToScaled
  rcases hparts : value.toList.splitOn '.' with _ | ⟨whole, _ | ⟨decimals, _ | _⟩⟩
  · rfl
  · dsimp only
    cases parseI64 whole with
    | none => rfl
    | some integerPart => rfl
  · dsimp only
    have hascii : ∀ c ∈ decimals, c.utf8Size = 1 := fun c hc => by
      refine h c ?_
      rw [toList_of_parts hparts]
      exact List.mem_append_right _ (List.mem_cons_of_mem _ hc)
    rw [fitDecimals_ascii hascii]
    cases parseWhole whole with
    | none => rfl
    | some integerPart =>
        simp only [Option.bind_eq_bind, Option.bind_some]
        cases parseI64 (Crypto.fitDecimals decimals precision) with
        | none => rfl
        | some decimalPart => rfl
  · rfl

/-! ## Signs -/

def signed (sign : Option Sign) (n : Int) : Int := if sign = some .minus then -n else n

theorem signed_of_ne {sign : Option Sign} (h : sign ≠ some .minus) (n : Int) : signed sign n = n := if_neg h

theorem signed_minus (n : Int) : signed (some .minus) n = -n := rfl

/-- What is closer to 0 is in range, too. -/
theorem inI64_signed {sign : Option Sign} {n m : Int} (hn : 0 ≤ n) (hle : n ≤ m) (h : InI64 (signed sign m)) :
    InI64 (signed sign n) := by
  unfold signed InI64 at *
  by_cases hsign : sign = some .minus
  · rw [if_pos hsign] at *
    omega
  · rw [if_neg hsign] at *
    omega

theorem signed_mul (sign : Option Sign) (n m : Int) : signed sign n * m = signed sign (n * m) := by
  unfold signed
  split
  · exact Int.neg_mul n m
  · rfl

theorem parseI64_text (sign : Option Sign) {ds : List (Fin 10)} (hds : ds ≠ []) :
    parseI64 (Sign.text sign ++ digitsText ds) = checked (signed sign (digitsValue ds)) := by
  rcases sign with _ | _ | _
  · show parseI64 (digitsText ds) = _
    rw [parseI64, spanSign_digitsText]
    exact parseDigits_text false hds
  · exact parseDigits_text false hds
  · exact parseDigits_text true hds

theorem parseWhole_text (sign : Option Sign) {ds : List (Fin 10)} (hds : ds ≠ []) :
    parseWhole (Sign.text sign ++ digitsText ds) = checked (signed sign (digitsValue ds)) := by
  unfold parseWhole
  rw [if_neg (by simp [digitsText, hds]), parseI64_text sign hds]

/-- **The value scaled and truncated**, digit by digit. -/
theorem truncated_value {x : Numeral} (hexp : x.exponent = none) {precision : Nat} (hp : precision ≤ 18) :
    truncated (x.value * 10 ^ precision) = signed x.sign (scaledValue x precision) := by
  have hnonneg : ∀ y : Numeral, 0 ≤ scaledValue y precision := fun y => by
    rw [scaledValue, scale_eq hp]
    positivity
  by_cases hsign : x.sign = some .minus
  · -- Without its minus the numeral has the opposite value.
    let y : Numeral := { x with sign := none }
    have hneg : x.value = -y.value := by
      unfold Numeral.value
      rw [hsign]
      exact neg_mul _ _
    obtain ⟨hlow, hhigh⟩ := scaledValue_bounds (x := y) (Option.some_ne_none _).symm hexp hp
    have htruncated : truncated (y.value * 10 ^ precision) = scaledValue x precision :=
      truncated_eq (hnonneg x) hlow hhigh
    rw [hneg, hsign, signed_minus, neg_mul, truncated_neg, htruncated]
  · obtain ⟨hlow, hhigh⟩ := scaledValue_bounds hsign hexp hp
    rw [signed_of_ne hsign]
    exact truncated_eq (hnonneg x) hlow hhigh

theorem checked_eq {n : Int} (h : InI64 n) : checked n = some n := if_pos h

theorem checked_eq_some {n m : Int} : checked n = some m ↔ InI64 n ∧ n = m := Profile.dev_i64

variable {x : Numeral} {precision : Nat}

/-! ## What is read of a numeral

Digits in front of the point, no exponent. -/

theorem parseToScaled_whole (profile : Profile) (hfraction : x.fraction = none) (hwhole : x.whole ≠ [])
    (hexp : x.exponent = none) (hp : precision ≤ 18) :
    parseToScaled profile x.text precision =
      some ((checked (signed x.sign (digitsValue x.whole))).bind fun integerPart =>
        checked (integerPart * 10 ^ precision)) := by
  have hscale := Profile.i64_eq ((inI64_pow_iff precision).mpr hp) profile
  have hparts := splitOn_text_whole hfraction
  rw [hexp, Numeral.exponentText, List.append_nil] at hparts
  unfold parseToScaled
  rw [hparts]
  dsimp only
  rw [parseI64_text x.sign hwhole, hscale]
  cases checked (signed x.sign (digitsValue x.whole)) with
  | none => rfl
  | some integerPart => rfl

theorem parseToScaled_point (profile : Profile) {ds : List (Fin 10)} (hfraction : x.fraction = some ds)
    (hwhole : x.whole ≠ []) (hexp : x.exponent = none) (hpos : 0 < precision) (hp : precision ≤ 18) :
    parseToScaled profile x.text precision =
      some ((checked (signed x.sign (digitsValue x.whole))).bind fun integerPart =>
        (checked (integerPart * 10 ^ precision)).bind fun product =>
          checked (product + digitsValue (x.decimals precision))) := by
  have hscale := Profile.i64_eq ((inI64_pow_iff precision).mpr hp) profile
  have hparts := splitOn_text_point hfraction
  have hfit := @Crypto.fitDecimals_digitsText x _ hfraction precision (Or.inl hexp)
  rw [hexp, Numeral.exponentText, List.append_nil] at hparts hfit
  have hne : x.decimals precision ≠ [] := by
    rw [← List.length_pos_iff, Numeral.length_decimals]
    exact hpos
  have hsmall : digitsValue (x.decimals precision) < 2 ^ 63 := by
    have hlt := digitsValue_lt (x.decimals precision)
    rw [Numeral.length_decimals] at hlt
    have hpow : 10 ^ precision ≤ 10 ^ 18 := Nat.pow_le_pow_right (by norm_num) hp
    omega
  unfold parseToScaled
  rw [hparts]
  dsimp only
  rw [parseWhole_text x.sign hwhole, fitDecimals_ascii utf8Size_digitsText, hfit, hscale]
  cases checked (signed x.sign (digitsValue x.whole)) with
  | none => rfl
  | some integerPart =>
      simp only [Option.bind_eq_bind, Option.bind_some, parseI64_digitsText hne, if_pos hsmall]

/-- To no decimals at all the digits behind the point are no integer. -/
theorem parseToScaled_point_zero (profile : Profile) {ds : List (Fin 10)} (hfraction : x.fraction = some ds)
    (hwhole : x.whole ≠ []) (hexp : x.exponent = none) : parseToScaled profile x.text 0 = some none := by
  have hparts := splitOn_text_point hfraction
  rw [hexp, Numeral.exponentText, List.append_nil] at hparts
  have hempty : Crypto.fitDecimals (digitsText ds) 0 = [] := by
    rw [Crypto.fitDecimals, if_neg (Nat.not_lt_zero _), List.take_zero]
  unfold parseToScaled
  rw [hparts]
  dsimp only
  rw [parseWhole_text x.sign hwhole, fitDecimals_ascii utf8Size_digitsText, hempty]
  cases checked (signed x.sign (digitsValue x.whole)) with
  | none => rfl
  | some integerPart => rfl

/-- The decimals are added to the front whatever its sign. -/
theorem signed_add_iff (sign : Option Sign) (n m : Int) :
    signed sign n + m = signed sign (n + m) ↔ sign ≠ some .minus ∨ m = 0 := by
  unfold signed
  split
  next hsign =>
    refine ⟨fun heq => Or.inr (by omega), fun h => ?_⟩
    rcases h with h | h
    · exact absurd hsign h
    · omega
  next hsign => exact iff_of_true rfl (Or.inl hsign)

/-- **A numeral is scaled as it should be** exactly when it has no point, or when there are decimals to keep and it
    has no minus or none of them counts. -/
theorem parseToScaled_exact_iff (hwhole : x.whole ≠ []) (hexp : x.exponent = none) (hp : precision ≤ 18)
    (hfits : InI64 (truncated (x.value * 10 ^ precision))) :
    (∀ profile, parseToScaled profile x.text precision = some (some (truncated (x.value * 10 ^ precision)))) ↔
      (x.fraction = none ∨
        0 < precision ∧ (x.sign ≠ some .minus ∨ digitsValue (x.decimals precision) = 0)) := by
  rw [truncated_value hexp hp, scaledValue, scale_eq hp] at *
  have hfront : (digitsValue x.whole : Int) ≤ digitsValue x.whole * 10 ^ precision :=
    le_mul_of_one_le_right (by positivity) (one_le_pow₀ (by norm_num))
  have hproduct : InI64 (signed x.sign (digitsValue x.whole * 10 ^ precision)) :=
    inI64_signed (by positivity) (by omega) hfits
  have hinteger : InI64 (signed x.sign (digitsValue x.whole)) := inI64_signed (by positivity) hfront hproduct
  cases hfraction : x.fraction with
  | none =>
      have hdecimals : digitsValue (x.decimals precision) = 0 := by
        rw [Numeral.decimals, hfraction, Option.getD_none, List.take_nil, List.nil_append, List.length_nil,
          digitsValue_replicate_zero]
      refine iff_of_true (fun profile => ?_) (Or.inl rfl)
      rw [parseToScaled_whole profile hfraction hwhole hexp hp, checked_eq hinteger, Option.bind_some, signed_mul,
        checked_eq hproduct, hdecimals, Nat.cast_zero, add_zero]
  | some ds =>
      rw [or_iff_right (Option.some_ne_none ds)]
      rcases Nat.eq_zero_or_pos precision with rfl | hpos
      · -- With no decimals to keep nothing is read.
        refine iff_of_false (fun h => ?_) (fun h => Nat.lt_irrefl 0 h.1)
        have hread := h .dev
        rw [parseToScaled_point_zero .dev hfraction hwhole hexp] at hread
        cases hread
      · rw [and_iff_right hpos, ← Nat.cast_eq_zero (R := Int), ← signed_add_iff]
        simp only [parseToScaled_point _ hfraction hwhole hexp hpos hp, checked_eq hinteger, Option.bind_some,
          signed_mul, checked_eq hproduct, Option.some.injEq]
        constructor
        · intro h
          exact (checked_eq_some.mp (h .dev)).2
        · intro h _
          rw [h]
          exact checked_eq hfits

/-- Four decimals, and all four count. -/
theorem parseToScaled_exact_iff_pi :
    let pi : Numeral := ⟨none, [3], some [1, 4, 1, 5], none, by decide⟩
    (∀ profile, parseToScaled profile pi.text 8 = some (some (truncated (pi.value * 10 ^ 8)))) ↔
      (pi.fraction = none ∨ 0 < 8 ∧ (pi.sign ≠ some .minus ∨ digitsValue (pi.decimals 8) = 0)) :=
  parseToScaled_exact_iff (by decide) rfl (by decide) (by decide +kernel)

/-- Of `-1.5` the half is added. -/
theorem not_parseToScaled_exact : ¬ ∀ (x : Numeral) (precision : Nat), x.sign ≠ some .plus → x.whole ≠ [] →
    x.exponent = none → precision ≤ 18 → InI64 (truncated (x.value * 10 ^ precision)) → ∀ profile,
      parseToScaled profile x.text precision = some (some (truncated (x.value * 10 ^ precision))) := by
  intro h
  have hread := h ⟨some .minus, [1], some [5], none, by decide⟩ 8 (by decide) (by decide) rfl (by decide)
    (by decide +kernel) .release
  revert hread
  decide +kernel

/-! ## Texts that are no numerals -/

/-- A sign or none, digits with at most one point among them. -/
def IsNumeral (value : String) : Prop := ∃ x : Numeral, x.exponent = none ∧ x.text = value

theorem isNumeral_of_part {value : String} {whole : List Char} (hparts : value.toList.splitOn '.' = [whole])
    (hread : parseI64 whole ≠ none) : IsNumeral value := by
  obtain ⟨sign, ds, hds, rfl⟩ := exists_text_of_parseI64 hread
  refine ⟨⟨sign, ds, none, none, by simpa using hds⟩, rfl, ?_⟩
  rw [Numeral.text, Numeral.fractionText, Numeral.exponentText, List.append_nil, List.append_nil,
    ← toList_of_part hparts, String.ofList_toList]

/-- With a point among them, and a front that is read: what follows are digits, and there is a digit. -/
theorem isNumeral_iff {value : String} {whole decimals : List Char}
    (hparts : value.toList.splitOn '.' = [whole, decimals]) (hread : parseWhole whole ≠ none) :
    IsNumeral value ↔ (∀ c ∈ decimals, c.isDigit = true) ∧ (whole ≠ [] ∨ decimals ≠ []) := by
  constructor
  · rintro ⟨x, hexp, rfl⟩
    cases hfraction : x.fraction with
    | none =>
        rw [splitOn_text_whole hfraction] at hparts
        cases hparts
    | some ds =>
        rw [splitOn_text_point hfraction, hexp, Numeral.exponentText, List.append_nil] at hparts
        obtain ⟨rfl, rfl⟩ : _ = whole ∧ _ = decimals := by simpa using hparts
        constructor
        · intro c hc
          obtain ⟨d, -, rfl⟩ := List.mem_map.mp hc
          exact isDigit_digitChar d
        · have hdigits := x.hasDigits
          rw [hfraction, Option.getD_some] at hdigits
          by_cases hds : ds = []
          · refine Or.inl fun hempty => hdigits ?_
            rw [hds, List.append_nil]
            exact List.map_eq_nil_iff.mp (List.append_eq_nil_iff.mp hempty).2
          · exact Or.inr fun hempty => hds (List.map_eq_nil_iff.mp hempty)
  · rintro ⟨hdigits, hne⟩
    obtain ⟨ds, rfl⟩ := exists_digitsText hdigits
    obtain ⟨sign, front, rfl, hfront⟩ : ∃ sign front, whole = Sign.text sign ++ digitsText front ∧
        (whole ≠ [] → front ≠ []) := by
      by_cases hempty : whole = []
      · exact ⟨none, [], hempty, fun h => absurd hempty h⟩
      · rw [parseWhole, if_neg hempty] at hread
        obtain ⟨sign, front, hfront, htext⟩ := exists_text_of_parseI64 hread
        exact ⟨sign, front, htext, fun _ => hfront⟩
    refine ⟨⟨sign, front, some ds, none, ?_⟩, rfl, ?_⟩
    · rw [Option.getD_some, Ne, List.append_eq_nil_iff]
      rintro ⟨hnofront, rfl⟩
      rcases hne with hne | hne
      · exact hfront hne hnofront
      · exact hne rfl
    · rw [Numeral.text, Numeral.fractionText, Numeral.exponentText, List.append_nil, ← toList_of_parts hparts,
        String.ofList_toList]

/-- Powers of ten are checked in the development profile, and `10^18` is the last one. -/
def PowerFits (profile : Profile) (precision : Nat) : Prop := profile = .release ∨ precision ≤ 18

/-- What a text with one point must not do to the parser. -/
structure SoundParts (profile : Profile) (whole decimals : List Char) (precision : Nat) : Prop where
  /-- The decimals are not cut inside a character. -/
  boundary : parseWhole whole ≠ none → AtBoundary decimals precision
  /-- A power of ten that overflows is not asked for. -/
  power    : parseWhole whole ≠ none → ∀ kept, fitDecimals decimals precision = some kept → parseI64 kept ≠ none →
    PowerFits profile precision
  /-- Decimals of which those kept are read, and with the front are in range, are digits, and not all is empty. -/
  digits   : ∀ front kept fraction, parseWhole whole = some front → fitDecimals decimals precision = some kept →
    parseI64 kept = some fraction → InI64 (front * scale precision) → InI64 (front * scale precision + fraction) →
    (∀ c ∈ decimals, c.isDigit = true) ∧ (whole ≠ [] ∨ decimals ≠ [])

def Sound (profile : Profile) (value : String) (precision : Nat) : Prop :=
  match value.toList.splitOn '.' with
  | [whole]           => parseI64 whole ≠ none → PowerFits profile precision
  | [whole, decimals] => SoundParts profile whole decimals precision
  | _                 => True

/-- Where the power fits, both profiles agree on the scale. -/
theorem i64_pow_of_fits {profile : Profile} (h : PowerFits profile precision) :
    profile.i64 (10 ^ precision) = some (scale precision) := by
  cases profile with
  | release => rfl
  | dev =>
      have hp := h.resolve_left nofun
      rw [Profile.i64_eq ((inI64_pow_iff precision).mpr hp), scale_eq hp]

theorem i64_pow_of_not_fits {profile : Profile} (h : ¬ PowerFits profile precision) :
    profile.i64 (10 ^ precision) = none := by
  cases profile with
  | release => exact absurd (Or.inl rfl) h
  | dev => exact Profile.dev_i64_of_not fun hrange => h (Or.inr ((inI64_pow_iff precision).mp hrange))

/-- What is read is in range, and so was the power of ten. -/
theorem inI64_of_read {profile : Profile} {value : String} {n : Int}
    (h : parseToScaled profile value precision = some (some n)) : InI64 n ∧ PowerFits profile precision := by
  have hscaled : ∀ {f : Int → Option Int}, (∀ scale, f scale = some n → InI64 n) →
      (profile.i64 (10 ^ precision)).bind (fun scale => some (f scale)) = some (some n) →
      InI64 n ∧ PowerFits profile precision := by
    intro f hf heq
    obtain ⟨scale, hscale, hread⟩ := Option.bind_eq_some_iff.mp heq
    refine ⟨hf scale (Option.some.inj hread), ?_⟩
    by_contra hfits
    rw [i64_pow_of_not_fits hfits] at hscale
    cases hscale
  unfold parseToScaled at h
  rcases hparts : value.toList.splitOn '.' with _ | ⟨whole, _ | ⟨decimals, _ | ⟨third, rest⟩⟩⟩ <;>
    rw [hparts] at h <;> dsimp only at h
  · cases h
  · cases hwhole : parseI64 whole with
    | none =>
        rw [hwhole] at h
        cases h
    | some front =>
        rw [hwhole] at h
        refine hscaled (fun scale hread => ?_) h
        obtain ⟨hrange, rfl⟩ := checked_eq_some.mp hread
        exact hrange
  · cases hwhole : parseWhole whole with
    | none =>
        rw [hwhole] at h
        cases h
    | some front =>
        rw [hwhole] at h
        obtain ⟨kept, -, hread⟩ := Option.bind_eq_some_iff.mp h
        cases hkept : parseI64 kept with
        | none =>
            rw [hkept] at hread
            cases hread
        | some fraction =>
            rw [hkept] at hread
            refine hscaled (fun scale hsum => ?_) hread
            obtain ⟨product, -, hsum⟩ := Option.bind_eq_some_iff.mp hsum
            obtain ⟨hrange, rfl⟩ := checked_eq_some.mp hsum
            exact hrange
  · cases h

theorem fitDecimals_isSome_iff (decimals : List Char) (precision : Nat) :
    (fitDecimals decimals precision).isSome ↔ AtBoundary decimals precision := by
  unfold fitDecimals
  split
  next hshort => exact iff_of_true rfl (Or.inl (Nat.le_of_lt hshort))
  next =>
    split
    next => exact truncate_isSome_iff decimals precision
    next hlong => exact iff_of_true rfl (Or.inl (Nat.le_of_not_lt hlong))

/-- What a text must not do to the parser: ask for a cut inside a character, or for a power of ten that overflows. -/
def Harmless (profile : Profile) (value : String) (precision : Nat) : Prop :=
  match value.toList.splitOn '.' with
  | [whole]           => parseI64 whole ≠ none → PowerFits profile precision
  | [whole, decimals] => parseWhole whole ≠ none → AtBoundary decimals precision ∧
      ∀ kept, fitDecimals decimals precision = some kept → parseI64 kept ≠ none → PowerFits profile precision
  | _                 => True

theorem i64_pow_isSome_iff (profile : Profile) (precision : Nat) :
    (profile.i64 (10 ^ precision)).isSome ↔ PowerFits profile precision := by
  by_cases h : PowerFits profile precision
  · rw [i64_pow_of_fits h]
    exact iff_of_true rfl h
  · rw [i64_pow_of_not_fits h]
    exact iff_of_false nofun h

/-- **Nothing panics** while the text is parsed. -/
theorem parseToScaled_isSome_iff (profile : Profile) (value : String) (precision : Nat) :
    (parseToScaled profile value precision).isSome ↔ Harmless profile value precision := by
  unfold parseToScaled Harmless
  rcases value.toList.splitOn '.' with _ | ⟨whole, _ | ⟨decimals, _ | ⟨third, rest⟩⟩⟩ <;> dsimp only
  · exact iff_of_true rfl trivial
  · cases parseI64 whole with
    | none => exact iff_of_true rfl fun h => absurd rfl h
    | some front =>
        simp only [Option.bind_eq_bind, Option.isSome_bind, Option.isSome_some, Option.any_true, ne_eq,
          Option.some_ne_none, not_false_eq_true, true_imp_iff]
        exact i64_pow_isSome_iff profile precision
  · cases parseWhole whole with
    | none => exact iff_of_true rfl fun h => absurd rfl h
    | some front =>
        rw [← fitDecimals_isSome_iff]
        cases fitDecimals decimals precision with
        | none => exact iff_of_false nofun fun h => nomatch (h (Option.some_ne_none front)).1
        | some kept =>
            simp only [Option.bind_eq_bind, Option.bind_some, ne_eq, Option.some_ne_none, not_false_eq_true,
              true_imp_iff, Option.isSome_some, true_and, Option.some.injEq, forall_eq']
            cases parseI64 kept with
            | none => exact iff_of_true rfl fun h => absurd rfl h
            | some fraction =>
                simp only [Option.isSome_bind, Option.isSome_some, Option.any_true, Option.some_ne_none,
                  not_false_eq_true, true_imp_iff]
                exact i64_pow_isSome_iff profile precision
  · exact iff_of_true rfl trivial

/-- Parse and scale, with fallback to 0. -/
def parseToScaledOrDefault (profile : Profile) (value : String) (precision : Nat) : Option Int :=
  (parseToScaled profile value precision).map fun n => n.getD 0

theorem parseToScaledOrDefault_isSome_iff (profile : Profile) (value : String) (precision : Nat) :
    (parseToScaledOrDefault profile value precision).isSome ↔ Harmless profile value precision := by
  rw [parseToScaledOrDefault, Option.isSome_map]
  exact parseToScaled_isSome_iff profile value precision

theorem sound_part {profile : Profile} {value : String} {whole : List Char}
    (hparts : value.toList.splitOn '.' = [whole]) :
    (parseToScaled profile value precision ≠ none ∧
        ∀ n, parseToScaled profile value precision = some (some n) → IsNumeral value) ↔
      (parseI64 whole ≠ none → PowerFits profile precision) := by
  unfold parseToScaled
  rw [hparts]
  dsimp only
  cases hwhole : parseI64 whole with
  | none => exact iff_of_true ⟨nofun, nofun⟩ fun h => absurd rfl h
  | some front =>
      have hnumeral : IsNumeral value := isNumeral_of_part hparts (hwhole ▸ Option.some_ne_none front)
      by_cases hfits : PowerFits profile precision
      · rw [i64_pow_of_fits hfits]
        exact iff_of_true ⟨nofun, fun _ _ => hnumeral⟩ fun _ => hfits
      · rw [i64_pow_of_not_fits hfits]
        exact iff_of_false (fun h => h.1 rfl) fun h => hfits (h (Option.some_ne_none front))

theorem sound_parts {profile : Profile} {value : String} {whole decimals : List Char}
    (hparts : value.toList.splitOn '.' = [whole, decimals]) :
    (parseToScaled profile value precision ≠ none ∧
        ∀ n, parseToScaled profile value precision = some (some n) → IsNumeral value) ↔
      SoundParts profile whole decimals precision := by
  unfold parseToScaled
  rw [hparts]
  dsimp only
  cases hwhole : parseWhole whole with
  | none =>
      exact iff_of_true ⟨nofun, nofun⟩ ⟨fun h => absurd hwhole h, fun h => absurd hwhole h, fun front _ _ h => by
        rw [hwhole] at h
        cases h⟩
  | some front =>
      have hread : parseWhole whole ≠ none := hwhole ▸ Option.some_ne_none front
      cases hfit : fitDecimals decimals precision with
      | none =>
          refine iff_of_false (fun h => h.1 rfl) fun h => ?_
          have hsome := (fitDecimals_isSome_iff decimals precision).mpr (h.boundary hread)
          rw [hfit] at hsome
          cases hsome
      | some kept =>
          have hboundary : AtBoundary decimals precision :=
            (fitDecimals_isSome_iff decimals precision).mp (by rw [hfit]; rfl)
          simp only [Option.bind_eq_bind, Option.bind_some]
          cases hkept : parseI64 kept with
          | none =>
              refine iff_of_true ⟨nofun, nofun⟩ ⟨fun _ => hboundary, fun _ kept' hkept' hread' => ?_,
                fun _ kept' _ _ hkept' hread' => ?_⟩
              · rw [hfit, Option.some.injEq] at hkept'
                exact absurd (hkept' ▸ hkept) hread'
              · rw [hfit, Option.some.injEq] at hkept'
                rw [← hkept', hkept] at hread'
                cases hread'
          | some fraction =>
              by_cases hfits : PowerFits profile precision
              · rw [i64_pow_of_fits hfits]
                simp only [Option.bind_some, Option.some.injEq]
                constructor
                · rintro ⟨-, hnumeral⟩
                  refine ⟨fun _ => hboundary, fun _ _ _ _ => hfits,
                    fun front' kept' fraction' hf hk hr hmul hadd => ?_⟩
                  obtain rfl : front = front' := Option.some.inj (hwhole.symm.trans hf)
                  obtain rfl : kept = kept' := Option.some.inj (hfit.symm.trans hk)
                  obtain rfl : fraction = fraction' := Option.some.inj (hkept.symm.trans hr)
                  refine (isNumeral_iff hparts hread).mp (hnumeral (front * scale precision + fraction) ?_)
                  rw [checked_eq hmul, Option.bind_some, checked_eq hadd]
                · intro h
                  refine ⟨nofun, fun n hn => (isNumeral_iff hparts hread).mpr ?_⟩
                  obtain ⟨product, hproduct, hsum⟩ := Option.bind_eq_some_iff.mp hn
                  obtain ⟨hmul, rfl⟩ := checked_eq_some.mp hproduct
                  obtain ⟨hadd, -⟩ := checked_eq_some.mp hsum
                  exact h.digits front kept fraction hwhole hfit hkept hmul hadd
              · rw [i64_pow_of_not_fits hfits]
                exact iff_of_false (fun h => h.1 rfl)
                  fun h => hfits (h.power hread kept hfit (hkept ▸ Option.some_ne_none fraction))

/-- **Nothing panics and only numerals are read** exactly of sound texts. -/
theorem sound_iff (profile : Profile) (value : String) (precision : Nat) :
    (parseToScaled profile value precision ≠ none ∧
        ∀ n, parseToScaled profile value precision = some (some n) → IsNumeral value) ↔
      Sound profile value precision := by
  rcases hparts : value.toList.splitOn '.' with _ | ⟨whole, _ | ⟨decimals, _ | ⟨third, rest⟩⟩⟩
  · unfold parseToScaled Sound
    rw [hparts]
    exact iff_of_true ⟨nofun, nofun⟩ trivial
  · rw [sound_part hparts, Sound, hparts]
  · rw [sound_parts hparts, Sound, hparts]
  · unfold parseToScaled Sound
    rw [hparts]
    exact iff_of_true ⟨nofun, nofun⟩ trivial

/-- A fraction cut inside its letter, a power of ten out of range, a sign behind the point, and no digit at all. -/
theorem not_sound :
    (∀ profile, parseToScaled profile "1.é" 1 = none) ∧ parseToScaled .dev "1" 19 = none ∧
      (∀ profile, parseToScaled profile "1.-5" 8 = some (some 95000000)) ∧ ¬ IsNumeral "1.-5" ∧
      (∀ profile, parseToScaled profile "." 8 = some (some 0)) ∧ ¬ IsNumeral "." := by
  refine ⟨fun profile => ?_, by decide +kernel, fun profile => ?_, fun h => ?_, fun profile => ?_, fun h => ?_⟩
  · cases profile <;> decide +kernel
  · cases profile <;> decide +kernel
  · have hparts : "1.-5".toList.splitOn '.' = [['1'], ['-', '5']] := by decide +kernel
    have hdigits := ((isNumeral_iff hparts (by decide +kernel)).mp h).1 '-' List.mem_cons_self
    revert hdigits
    decide
  · cases profile <;> decide +kernel
  · have hparts : ".".toList.splitOn '.' = [[], []] := by decide +kernel
    rcases ((isNumeral_iff hparts (by decide +kernel)).mp h).2 with hne | hne
    · exact hne rfl
    · exact hne rfl

end Parse
end Crypto
end TradingPlatform
