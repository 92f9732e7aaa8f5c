import TradingPlatform.Crypto.Units
import TradingPlatform.Rust.Overflow

/-!
# `Crypto.Normalizer` — the other way to milliseconds

`normalize_timestamp` looks an exchange up in a table of formats, and guesses from the number of digits only if the
exchange is not in it; `process_timestamp_field` always goes by the digits. Both are right about how to convert from
a unit. So on a timestamp that the filter accepts they agree exactly if the table has no other unit for the exchange
than the one the digits tell (`normalizers_agree_iff`).
-/

namespace TradingPlatform
namespace Crypto

open Rust

inductive TimestampFormat where
  | seconds
  | milliseconds
  | microseconds
  | nanoseconds
deriving DecidableEq

/-- `EXCHANGE_FORMATS` -/
def exchangeFormats : List (String × TimestampFormat) :=
  [("Binance", .milliseconds), ("Bybit", .milliseconds), ("OKX", .milliseconds), ("Coinbase", .milliseconds),
   ("Upbit", .seconds), ("Bithumb", .seconds), ("Deribit", .microseconds)]

/-- The clock, in milliseconds that an `i64` holds. -/
structure SystemClock where
  nowMs : Nat
  inI64 : nowMs < 2 ^ 63

/-- The length of the text of an `i64`. -/
def signedDigitCount (n : Int) : Nat := if n < 0 then digitCount n.natAbs + 1 else digitCount n.natAbs

/-- The format that a number of digits tells, milliseconds where it tells none. -/
def detectedFormat (digitCount : Nat) : TimestampFormat :=
  if 1 ≤ digitCount ∧ digitCount ≤ 10 then .seconds
  else if 11 ≤ digitCount ∧ digitCount ≤ 13 then .milliseconds
  else if 14 ≤ digitCount ∧ digitCount ≤ 16 then .microseconds
  else if 17 ≤ digitCount ∧ digitCount ≤ 19 then .nanoseconds
  else .milliseconds

section Normalize

variable (profile : Profile) (clock : SystemClock)

/-- `converted` -/
def convertedByFormat (timestamp : Int) : TimestampFormat → Option Int
  | .seconds      => profile.i64 (timestamp * 1000)
  | .milliseconds => some timestamp
  | .microseconds => some (timestamp.tdiv 1000)
  | .nanoseconds  => some (timestamp.tdiv 1000000)

/-- The distance from the clock is computed for a warning only. -/
def convertByFormat (timestamp : Int) (format : TimestampFormat) : Option Int := do
  let converted ← convertedByFormat profile timestamp format
  let difference ← profile.i64 (converted - clock.nowMs)
  let _distance ← profile.i64 difference.natAbs
  return converted

/-- Normalize any timestamp to milliseconds. -/
def normalizeTimestamp (timestamp : Int) (exchange : String) : Option Int :=
  if timestamp = 0 then some 0
  else do
    let magnitude ← profile.i64 timestamp.natAbs
    match exchangeFormats.lookup exchange with
    | some format => convertByFormat profile clock timestamp format
    | none        => convertByFormat profile clock timestamp (detectedFormat (signedDigitCount magnitude))

end Normalize

/-! ## Conversion -/

/-- A number of some unit in milliseconds. -/
def TimestampFormat.inMillis (value : Nat) : TimestampFormat → Nat
  | .seconds      => value * 1000
  | .milliseconds => value
  | .microseconds => value / 1000
  | .nanoseconds  => value / 1000000

open TimestampFormat (inMillis)

/-- The format the normaliser uses. -/
def usedFormat (exchange : String) (value : Nat) : TimestampFormat :=
  (exchangeFormats.lookup exchange).getD (detectedFormat (digitCount value))

section Conversion

variable {profile : Profile} {clock : SystemClock} {exchange : String} {value : Nat}

theorem convertedByFormat_eq (h : value * 1000 < 2 ^ 63) (format : TimestampFormat) :
    convertedByFormat profile value format = some (inMillis value format : Int) := by
  cases format with
  | seconds => exact Profile.i64_eq ⟨by omega, by omega⟩ profile
  | milliseconds => rfl
  | microseconds => rfl
  | nanoseconds => rfl

theorem inMillis_le (value : Nat) (format : TimestampFormat) : inMillis value format ≤ value * 1000 := by
  cases format with
  | seconds => exact Nat.le_refl _
  | milliseconds => exact Nat.le_mul_of_pos_right value (by decide)
  | microseconds => exact Nat.le_trans (Nat.div_le_self ..) (Nat.le_mul_of_pos_right value (by decide))
  | nanoseconds => exact Nat.le_trans (Nat.div_le_self ..) (Nat.le_mul_of_pos_right value (by decide))

/-- **Conversion is exact** in both profiles, as long as the seconds do not overflow. -/
theorem convertByFormat_eq (h : value * 1000 < 2 ^ 63) (format : TimestampFormat) :
    convertByFormat profile clock value format = some (inMillis value format : Int) := by
  have hclock := clock.inI64
  have hle := inMillis_le value format
  have hdifference : InI64 ((inMillis value format : Int) - clock.nowMs) := ⟨by omega, by omega⟩
  have hdistance : InI64 (((inMillis value format : Int) - clock.nowMs).natAbs : Int) := ⟨by omega, by omega⟩
  rw [convertByFormat, convertedByFormat_eq h, Option.bind_eq_bind, Option.bind_some,
    Profile.i64_eq hdifference, Option.bind_some, Profile.i64_eq hdistance]
  rfl

/-- The normaliser converts from the format of the table, or from the one the digits tell. -/
theorem normalizeTimestamp_eq (hpos : 0 < value) (h : value * 1000 < 2 ^ 63) :
    normalizeTimestamp profile clock value exchange = some (inMillis value (usedFormat exchange value) : Int) := by
  have hmagnitude : profile.i64 ((value : Int).natAbs : Int) = some (value : Int) := by
    rw [Int.natAbs_natCast]
    exact Profile.i64_eq ⟨by omega, by omega⟩ profile
  have hdigits : signedDigitCount value = digitCount value := if_neg (by omega)
  rw [normalizeTimestamp, if_neg (by omega), hmagnitude, Option.bind_eq_bind, Option.bind_some, hdigits]
  unfold usedFormat
  cases exchangeFormats.lookup exchange with
  | none => exact convertByFormat_eq h _
  | some format => exact convertByFormat_eq h _

/-- From a thousand on, different formats are different times. -/
theorem inMillis_inj (h : 1000 ≤ value) {format format' : TimestampFormat} :
    inMillis value format = inMillis value format' ↔ format = format' := by
  refine ⟨fun heq => ?_, fun heq => by rw [heq]⟩
  cases format <;> cases format' <;> dsimp only [inMillis] at heq <;> first | rfl | omega

end Conversion

/-! ## Agreement -/

/-- What the filter accepts, the normaliser turns into the same time. -/
def NormalizersAgree (profile : Profile) (filterMs : Nat) (clock : SystemClock) (exchange : String) (value : Nat) :
    Prop :=
  ∀ w : Nat, processTimestampField filterMs value = (true, w) →
    normalizeTimestamp profile clock value exchange = some (w : Int)

/-- What the filter accepts has ten, thirteen or sixteen digits, and comes out as they tell. -/
theorem accepted_eq {nowMs value w : Nat} (h : processTimestampField nowMs value = (true, w)) :
    w = inMillis value (detectedFormat (digitCount value)) ∧ 1000 ≤ value ∧ value * 1000 < 2 ^ 63 := by
  rw [processTimestampField_eq] at h
  split at h
  next hseconds =>
    cases h
    have hrange := hseconds.inRange
    rw [digitCount_seconds hrange]
    unfold ValidMillis minValidTimestamp maxValidTimestamp at hrange
    exact ⟨rfl, by omega, by omega⟩
  next =>
    split at h
    next hmillis =>
      cases h
      have hrange := hmillis.inRange
      rw [digitCount_millis hrange]
      unfold ValidMillis minValidTimestamp maxValidTimestamp at hrange
      exact ⟨rfl, by omega, by omega⟩
    next =>
      split at h
      next hrange =>
        cases h
        rw [digitCount_micros hrange]
        unfold ValidMillis minValidTimestamp maxValidTimestamp at hrange
        exact ⟨rfl, by omega, by omega⟩
      next => cases h

/-- **The two agree exactly if the table has no other unit than the digits**, or the value is no timestamp for the
    filter. -/
theorem normalizers_agree_iff (profile : Profile) (filterMs : Nat) (clock : SystemClock) (exchange : String)
    (value : Nat) :
    NormalizersAgree profile filterMs clock exchange value ↔
      (isValidTimestamp filterMs value = true →
        ∀ format, exchangeFormats.lookup exchange = some format → format = detectedFormat (digitCount value)) := by
  constructor
  · intro hagree hvalid format hformat
    have hprocess : processTimestampField filterMs value = (true, _) := if_pos hvalid
    obtain ⟨hw, hlow, hhigh⟩ := accepted_eq hprocess
    have hsame := hagree _ hprocess
    rw [hw, normalizeTimestamp_eq (by omega) hhigh] at hsame
    have hused := (inMillis_inj hlow).mp (Int.ofNat.inj (Option.some.inj hsame))
    rw [← hused, usedFormat, hformat]
    rfl
  · intro htable w hprocess
    have hvalid : isValidTimestamp filterMs value = true := by
      unfold processTimestampField at hprocess
      split at hprocess
      next hvalid => exact hvalid
      next => cases hprocess
    obtain ⟨hw, hlow, hhigh⟩ := accepted_eq hprocess
    have hused : usedFormat exchange value = detectedFormat (digitCount value) := by
      unfold usedFormat
      cases hformat : exchangeFormats.lookup exchange with
      | none => rfl
      | some format => exact htable hvalid format hformat
    rw [hw, normalizeTimestamp_eq (by omega) hhigh, hused]

/-- A clock in September 2025. -/
def september2025 : SystemClock := ⟨1757545057527, by decide⟩

/-- Milliseconds of Upbit, which the table takes for seconds, come out as microseconds; seconds of Binance stay
    seconds. -/
theorem upbit_millis_multiplied :
    ¬ NormalizersAgree .release september2025.nowMs september2025 "Upbit" 1757545057527 ∧
    processTimestampField september2025.nowMs 1757545057527 = (true, 1757545057527) ∧
    normalizeTimestamp .release september2025 1757545057527 "Upbit" = some 1757545057527000 ∧
    processTimestampField september2025.nowMs 1757545057 = (true, 1757545057000) ∧
    normalizeTimestamp .release september2025 1757545057 "Binance" = some 1757545057 := by
  have hfilter : processTimestampField september2025.nowMs 1757545057527 = (true, 1757545057527) :=
    processTimestampField_millis (by decide)
  have hupbit : normalizeTimestamp .release september2025 1757545057527 "Upbit" = some 1757545057527000 := by
    decide +kernel
  have hbinance : normalizeTimestamp .release september2025 1757545057 "Binance" = some 1757545057 := by
    decide +kernel
  refine ⟨fun h => ?_, hfilter, hupbit, processTimestampField_seconds (by decide), hbinance⟩
  have hagree := h _ hfilter
  rw [Nat.cast_ofNat, hupbit] at hagree
  cases hagree

end Crypto
end TradingPlatform
