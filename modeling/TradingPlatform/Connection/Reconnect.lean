import TradingPlatform.Connection.Limits

/-!
# `Connection.Reconnect` — the delay before a reconnection attempt

`wait_for_reconnect` converts the exponential to a `Duration` before it caps it, and applies the jitter after. So the
delay exists as long as the exponential itself fits in a `Duration`, and keeps below the cap as long as the jitter
does not lift it (`backoff_iff`).
-/

namespace TradingPlatform
namespace Connection

open Rust Rust.Duration

/-- `u32 as i32`. -/
def u32AsI32 (n : Nat) : Int := if n < 2 ^ 31 then n else (n : Int) - 2 ^ 32

/-- `f64::powi`. -/
def powi (base : ℚ) : Int → ℚ
  | .ofNat n   => base ^ n
  | .negSucc n => (base ^ (n + 1))⁻¹

/-- The first half of `wait_for_reconnect`: exponential backoff, capped. -/
def cappedDelay (limits : ExchangeConnectionLimits) (attempt : Nat) : Option Nat :=
  let baseDelay := limits.initialReconnectDelay
  let multiplier := powi limits.backoffMultiplier (u32AsI32 (attempt - 1))
  (fromSecsF64 (asSecsF64 baseDelay * multiplier)).map fun calculatedDelay =>
    min calculatedDelay limits.maxReconnectDelay

/-- With the limits that are stored for the exchange, or else the default ones. -/
def waitForReconnect (limits : ExchangeConnectionLimits) (attempt : Nat) (jitterFactor : ℚ) : Option Nat :=
  (cappedDelay limits attempt).bind fun cappedDelay =>
    if limits.useJitter then fromSecsF64 (asSecsF64 cappedDelay * jitterFactor) else some cappedDelay

/-! ## What a delay should be -/

/-- The backoff at an attempt: there is a delay, it is within the maximum, and before the jitter no earlier attempt
    has a longer one. -/
structure SoundBackoff (limits : ExchangeConnectionLimits) (attempt : Nat) (jitterFactor : ℚ) : Prop where
  bounded  : ∃ delay, waitForReconnect limits attempt jitterFactor = some delay ∧ delay ≤ limits.maxReconnectDelay
  monotone : ∀ earlier, earlier ≤ attempt → ∃ delay later,
    cappedDelay limits earlier = some delay ∧ cappedDelay limits attempt = some later ∧ delay ≤ later

/-- The exponential in nanoseconds, neither rounded nor capped. -/
def idealDelay (limits : ExchangeConnectionLimits) (attempt : Nat) : ℚ :=
  limits.initialReconnectDelay * limits.backoffMultiplier ^ (attempt - 1)

/-- The exponential is less than `2^64` seconds, and the jitter lifts it or the maximum by less than it takes to
    round above the maximum. -/
structure BackoffFits (limits : ExchangeConnectionLimits) (attempt : Nat) (jitterFactor : ℚ) : Prop where
  representable : idealDelay limits attempt + 1 / 2 < 2 ^ 64 * 10 ^ 9
  jittered      : limits.maxReconnectDelay * jitterFactor ≤ limits.maxReconnectDelay + 1 / 2 ∨
    nearestEven (idealDelay limits attempt) * jitterFactor ≤ limits.maxReconnectDelay + 1 / 2

/-! ## The exponential -/

variable {limits : ExchangeConnectionLimits} {attempt earlier : Nat} {jitterFactor : ℚ}

theorem idealDelay_nonneg (h : limits.Sound) : 0 ≤ idealDelay limits attempt := by
  have hmultiplier := h.multiplier
  exact mul_nonneg (Nat.cast_nonneg _) (pow_nonneg (by linarith) _)

theorem idealDelay_mono (h : limits.Sound) (hle : earlier ≤ attempt) :
    idealDelay limits earlier ≤ idealDelay limits attempt := by
  have hmultiplier := h.multiplier
  have hpow : limits.backoffMultiplier ^ (earlier - 1) ≤ limits.backoffMultiplier ^ (attempt - 1) :=
    pow_le_pow_right₀ (by linarith) (by omega)
  exact mul_le_mul_of_nonneg_left hpow (Nat.cast_nonneg _)

/-- Long before the exponent wraps, the exponential is out of range. -/
theorem idealDelay_large (h : limits.Sound) (hattempt : 201 ≤ attempt) :
    (2 : ℚ) ^ 64 * 10 ^ 9 ≤ idealDelay limits attempt := by
  have hmultiplier := h.multiplier
  have hinitial : (1 : ℚ) ≤ limits.initialReconnectDelay := by exact_mod_cast h.initial
  calc (2 : ℚ) ^ 64 * 10 ^ 9
      ≤ (3 / 2) ^ 200 := by norm_num
    _ ≤ limits.backoffMultiplier ^ 200 := pow_le_pow_left₀ (by norm_num) hmultiplier 200
    _ ≤ limits.backoffMultiplier ^ (attempt - 1) := pow_le_pow_right₀ (by linarith) (by omega)
    _ ≤ idealDelay limits attempt := le_mul_of_one_le_left (pow_nonneg (by linarith) _) hinitial

/-- As long as the exponent does not wrap, the capped delay is the exponential, rounded and capped. -/
theorem cappedDelay_eq (h : limits.Sound) (hattempt : attempt ≤ 2 ^ 31) :
    cappedDelay limits attempt =
      if idealDelay limits attempt + 1 / 2 < 2 ^ 64 * 10 ^ 9 then
        some (min (nearestEven (idealDelay limits attempt)).toNat limits.maxReconnectDelay)
      else none := by
  have hmultiplier := h.multiplier
  have hexponent : u32AsI32 (attempt - 1) = Int.ofNat (attempt - 1) := if_pos (by omega)
  unfold cappedDelay
  dsimp only
  rw [hexponent]
  show Option.map _ (fromSecsF64 (asSecsF64 _ * limits.backoffMultiplier ^ (attempt - 1))) = _
  rw [fromSecsF64_scaled _ (pow_nonneg (by linarith) _), ← idealDelay]
  split <;> rfl

/-! ## The jitter -/

/-- The delay after the jitter exceeds the maximum only if both the exponential and the cap are lifted above it. -/
theorem jittered_le_iff (h : limits.Sound) (hlow : 3 / 4 ≤ jitterFactor) (hhigh : jitterFactor ≤ 5 / 4)
    (nanos : Nat) :
    (∃ delay, fromSecsF64 (asSecsF64 (min nanos limits.maxReconnectDelay) * jitterFactor) = some delay ∧
      delay ≤ limits.maxReconnectDelay) ↔
    limits.maxReconnectDelay * jitterFactor ≤ limits.maxReconnectDelay + 1 / 2 ∨
      nanos * jitterFactor ≤ limits.maxReconnectDelay + 1 / 2 := by
  have hfactor : 0 ≤ jitterFactor := by linarith
  have hmax : (limits.maxReconnectDelay : ℚ) ≤ 600 * 10 ^ 9 := by exact_mod_cast h.max
  have hcap : ((min nanos limits.maxReconnectDelay : Nat) : ℚ) ≤ limits.maxReconnectDelay := by
    exact_mod_cast min_le_right nanos limits.maxReconnectDelay
  -- the capped delay is far from what does not fit
  have hfits : ((min nanos limits.maxReconnectDelay : Nat) : ℚ) * jitterFactor + 1 / 2 < 2 ^ 64 * 10 ^ 9 := by
    have hproduct : ((min nanos limits.maxReconnectDelay : Nat) : ℚ) * jitterFactor ≤ 600 * 10 ^ 9 * (5 / 4) :=
      mul_le_mul (hcap.trans hmax) hhigh hfactor (by norm_num)
    linarith
  have heven : (limits.maxReconnectDelay : Int) % 2 = 0 := by exact_mod_cast h.even
  have hbound := nearestEven_le_iff (x := (min nanos limits.maxReconnectDelay : Nat) * jitterFactor) heven
  rw [fromSecsF64_scaled _ hfactor, if_pos hfits]
  constructor
  · rintro ⟨delay, hdelay, hle⟩
    cases hdelay
    have hx := hbound.mp (Int.toNat_le.mp hle)
    rcases min_choice nanos limits.maxReconnectDelay with hmin | hmin
    · rw [hmin] at hx
      exact Or.inr (by exact_mod_cast hx)
    · rw [hmin] at hx
      exact Or.inl (by exact_mod_cast hx)
  · intro hor
    refine ⟨_, rfl, Int.toNat_le.mpr (hbound.mpr ?_)⟩
    have hnanos : ((min nanos limits.maxReconnectDelay : Nat) : ℚ) ≤ nanos := by
      exact_mod_cast min_le_left nanos limits.maxReconnectDelay
    rcases hor with hor | hor
    · exact (mul_le_mul_of_nonneg_right hcap hfactor).trans (by exact_mod_cast hor)
    · exact (mul_le_mul_of_nonneg_right hnanos hfactor).trans (by exact_mod_cast hor)

theorem waitForReconnect_of_capped (h : limits.Sound) {capped : Nat}
    (hcapped : cappedDelay limits attempt = some capped) :
    waitForReconnect limits attempt jitterFactor = fromSecsF64 (asSecsF64 capped * jitterFactor) := by
  unfold waitForReconnect
  rw [hcapped, Option.bind_some, if_pos h.jitter]

/-! ## All attempts -/

/-- A backoff that is sound has an exponential that fits: a wrapped exponent comes after one that panics. -/
theorem SoundBackoff.representable (h : SoundBackoff limits attempt jitterFactor) (hlimits : limits.Sound) :
    idealDelay limits attempt + 1 / 2 < 2 ^ 64 * 10 ^ 9 := by
  by_contra hlarge
  rcases le_or_gt attempt (2 ^ 31) with hattempt | hattempt
  · obtain ⟨delay, hdelay, _⟩ := h.bounded
    rw [waitForReconnect, cappedDelay_eq hlimits hattempt, if_neg hlarge] at hdelay
    cases hdelay
  · obtain ⟨delay, _, hdelay, _⟩ := h.monotone (2 ^ 31) hattempt.le
    have hout : (2 : ℚ) ^ 64 * 10 ^ 9 ≤ idealDelay limits (2 ^ 31) + 1 / 2 :=
      (idealDelay_large hlimits (by norm_num)).trans (le_add_of_nonneg_right (by norm_num))
    rw [cappedDelay_eq hlimits le_rfl, if_neg (not_lt.mpr hout)] at hdelay
    cases hdelay

theorem soundBackoff_iff (hlimits : limits.Sound) (hlow : 3 / 4 ≤ jitterFactor) (hhigh : jitterFactor ≤ 5 / 4) :
    SoundBackoff limits attempt jitterFactor ↔ BackoffFits limits attempt jitterFactor := by
  have hnanos : ((nearestEven (idealDelay limits attempt)).toNat : ℚ) = nearestEven (idealDelay limits attempt) := by
    exact_mod_cast Int.toNat_of_nonneg (nearestEven_nonneg (idealDelay_nonneg hlimits))
  have hjitter := jittered_le_iff hlimits hlow hhigh (nearestEven (idealDelay limits attempt)).toNat
  rw [hnanos] at hjitter
  -- an exponential that fits has an exponent that does not wrap
  have hcapped : ∀ earlier, earlier ≤ attempt → idealDelay limits attempt + 1 / 2 < 2 ^ 64 * 10 ^ 9 →
      cappedDelay limits earlier =
        some (min (nearestEven (idealDelay limits earlier)).toNat limits.maxReconnectDelay) := by
    intro earlier hle hfits
    have hsmall : attempt < 201 := by
      by_contra hge
      have hlarge := idealDelay_large hlimits (not_lt.mp hge)
      linarith
    have hmono := idealDelay_mono hlimits hle
    rw [cappedDelay_eq hlimits (by omega), if_pos (by linarith)]
  constructor
  · intro h
    have hfits := h.representable hlimits
    have hbounded := h.bounded
    rw [waitForReconnect_of_capped hlimits (hcapped attempt le_rfl hfits)] at hbounded
    exact ⟨hfits, hjitter.mp hbounded⟩
  · intro h
    constructor
    · rw [waitForReconnect_of_capped hlimits (hcapped attempt le_rfl h.representable)]
      exact hjitter.mpr h.jittered
    · intro earlier hle
      refine ⟨_, _, hcapped earlier hle h.representable, hcapped attempt le_rfl h.representable, ?_⟩
      have hround := nearestEven_mono (idealDelay_mono hlimits hle)
      exact min_le_min_right _ (Int.toNat_le_toNat hround)

/-- **The backoff of an exchange is sound** exactly as long as the exponential fits in a `Duration` and the jitter
    stays below the cap. -/
theorem backoff_iff (exchange : String) {attempt : Nat} (_ : attempt < 2 ^ 32) {jitterFactor : ℚ}
    (hlow : 3 / 4 ≤ jitterFactor) (hhigh : jitterFactor ≤ 5 / 4) :
    SoundBackoff (.forExchange exchange) attempt jitterFactor ↔
      BackoffFits (.forExchange exchange) attempt jitterFactor :=
  soundBackoff_iff (ExchangeConnectionLimits.forExchange_sound exchange) hlow hhigh

theorem backoff_iff_third :
    SoundBackoff (.forExchange "OKX") 3 1 ↔ BackoffFits (.forExchange "OKX") 3 1 :=
  backoff_iff "OKX" (by norm_num) (by norm_num) (by norm_num)

/-- On one exchange the sixty-fifth attempt panics, long after the delays have reached their cap; on another the
    jitter makes five minutes into more than six. -/
theorem backoff_overrun :
    waitForReconnect (.forExchange "coinbase") 65 1 = none ∧
    waitForReconnect (.forExchange "binance") 16 (5 / 4) = some (fromSecs 375) ∧
    ¬ SoundBackoff (.forExchange "coinbase") 65 1 ∧ ¬ SoundBackoff (.forExchange "binance") 16 (5 / 4) := by
  have hcoinbase : waitForReconnect (.forExchange "coinbase") 65 1 = none := by decide +kernel
  have hbinance : waitForReconnect (.forExchange "binance") 16 (5 / 4) = some (fromSecs 375) := by decide +kernel
  refine ⟨hcoinbase, hbinance, ?_, ?_⟩
  · rintro ⟨⟨delay, hdelay, _⟩, _⟩
    rw [hcoinbase] at hdelay
    cases hdelay
  · rintro ⟨⟨delay, hdelay, hle⟩, _⟩
    rw [hbinance] at hdelay
    cases hdelay
    revert hle
    decide

end Connection
end TradingPlatform
