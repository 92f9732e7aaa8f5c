import TradingPlatform.Crypto.Trades

/-!
# `Crypto.Units` — the unit of a timestamp

The feeds guess from the number of digits whether a number is a timestamp, and in which unit. What they accept is
told without digits by `processTimestampField_eq`: seconds and milliseconds of the window around the clock, and
microseconds of all valid instants. Nanoseconds are never accepted, although there is a case for them.
-/

namespace TradingPlatform
namespace Crypto

/-! ## The window -/

def ValidMillis (millis : Nat) : Prop := minValidTimestamp ≤ millis ∧ millis ≤ maxValidTimestamp

instance (millis : Nat) : Decidable (ValidMillis millis) := inferInstanceAs (Decidable (_ ∧ _))

def twoYearsMs : Nat := 2 * (365 * 24 * 60 * 60 * 1000)

/-- A valid instant, less than two years from the clock. -/
structure InWindow (nowMs millis : Nat) : Prop where
  inRange : ValidMillis millis
  early   : millis < nowMs + twoYearsMs
  late    : nowMs < millis + twoYearsMs

theorem isRecent_iff {nowMs millis : Nat} : isRecent nowMs millis = true ↔ InWindow nowMs millis := by
  have hdiff : (if millis > nowMs then millis - nowMs else nowMs - millis) < 365 * 24 * 60 * 60 * 1000 * 2 ↔
      millis < nowMs + twoYearsMs ∧ nowMs < millis + twoYearsMs := by
    unfold twoYearsMs
    split <;> omega
  unfold isRecent
  dsimp only
  rw [Bool.and_eq_true, Bool.and_eq_true, decide_eq_true_iff, decide_eq_true_iff, decide_eq_true_iff, hdiff]
  exact ⟨fun ⟨hrange, hearly, hlate⟩ => ⟨hrange, hearly, hlate⟩, fun h => ⟨h.inRange, h.early, h.late⟩⟩

instance (nowMs millis : Nat) : Decidable (InWindow nowMs millis) := decidable_of_iff _ isRecent_iff

/-! ## Digits -/

theorem digitCount_eq_iff {value k : Nat} (h : 0 < k) :
    digitCount value = k + 1 ↔ 10 ^ k ≤ value ∧ value < 10 ^ (k + 1) := by
  have hle : digitCount value ≤ k + 1 ↔ value < 10 ^ (k + 1) :=
    Nat.length_toDigits_le_iff (by decide) (Nat.succ_pos k)
  have hle' : digitCount value ≤ k ↔ value < 10 ^ k := Nat.length_toDigits_le_iff (by decide) h
  omega

/-- A valid instant has ten digits in seconds. -/
theorem digitCount_seconds {value : Nat} (h : ValidMillis (value * 1000)) : digitCount value = 10 := by
  unfold ValidMillis minValidTimestamp maxValidTimestamp at h
  exact (digitCount_eq_iff (by decide)).mpr ⟨by omega, by omega⟩

theorem digitCount_millis {value : Nat} (h : ValidMillis value) : digitCount value = 13 := by
  unfold ValidMillis minValidTimestamp maxValidTimestamp at h
  exact (digitCount_eq_iff (by decide)).mpr ⟨by omega, by omega⟩

theorem digitCount_micros {value : Nat} (h : ValidMillis (value / 1000)) : digitCount value = 16 := by
  unfold ValidMillis minValidTimestamp maxValidTimestamp at h
  exact (digitCount_eq_iff (by decide)).mpr ⟨by omega, by omega⟩

theorem digitCount_nanos {value : Nat} (h : ValidMillis (value / 1000000)) : digitCount value = 19 := by
  unfold ValidMillis minValidTimestamp maxValidTimestamp at h
  exact (digitCount_eq_iff (by decide)).mpr ⟨by omega, by omega⟩

/-- The number of digits tells the units apart. -/
theorem not_inWindow_seconds {nowMs value k : Nat} (hdigits : digitCount value = k) (hk : k ≠ 10) :
    ¬ InWindow nowMs (value * 1000) := by
  intro hwindow
  exact hk (hdigits.symm.trans (digitCount_seconds hwindow.inRange))

theorem not_inWindow_millis {nowMs value k : Nat} (hdigits : digitCount value = k) (hk : k ≠ 13) :
    ¬ InWindow nowMs value := by
  intro hwindow
  exact hk (hdigits.symm.trans (digitCount_millis hwindow.inRange))

/-! ## What is accepted -/

/-- **The four outcomes**, without digits. -/
theorem processTimestampField_eq (nowMs value : Nat) :
    processTimestampField nowMs value =
      if InWindow nowMs (value * 1000) then (true, value * 1000)
      else if InWindow nowMs value then (true, value)
      else if ValidMillis (value / 1000) then (true, value / 1000)
      else (false, value) := by
  by_cases hseconds : InWindow nowMs (value * 1000)
  · have hdigits := digitCount_seconds hseconds.inRange
    simp [processTimestampField, isValidTimestamp, hdigits, isRecent_iff.mpr hseconds, hseconds]
  by_cases hmillis : InWindow nowMs value
  · have hdigits := digitCount_millis hmillis.inRange
    simp [processTimestampField, isValidTimestamp, hdigits, isRecent_iff.mpr hmillis, hseconds, hmillis]
  have hmicros : (decide (minValidTimestamp ≤ value / 1000) && decide (value / 1000 ≤ maxValidTimestamp)) =
      decide (ValidMillis (value / 1000)) := (Bool.decide_and _ _).symm
  by_cases hrange : ValidMillis (value / 1000)
  · have hdigits := digitCount_micros hrange
    simp [processTimestampField, isValidTimestamp, hdigits, hmicros, hseconds, hmillis, hrange]
  · -- whatever the number of digits, its check fails
    have hinvalid : isValidTimestamp nowMs value = false := by
      unfold isValidTimestamp
      rw [hmicros, decide_eq_false hrange, Bool.eq_false_of_not_eq_true (isRecent_iff.not.mpr hseconds),
        Bool.eq_false_of_not_eq_true (isRecent_iff.not.mpr hmillis)]
      split <;> rfl
    simp [processTimestampField, hinvalid, hseconds, hmillis, hrange]

/-- Seconds and milliseconds are accepted within the window only. -/
theorem processTimestampField_seconds {nowMs value : Nat} (h : InWindow nowMs (value * 1000)) :
    processTimestampField nowMs value = (true, value * 1000) := by
  rw [processTimestampField_eq, if_pos h]

theorem processTimestampField_millis {nowMs value : Nat} (h : InWindow nowMs value) :
    processTimestampField nowMs value = (true, value) := by
  have hdigits := digitCount_millis h.inRange
  rw [processTimestampField_eq, if_neg (not_inWindow_seconds hdigits (by decide)), if_pos h]

/-- Microseconds are accepted at all times. -/
theorem processTimestampField_micros (nowMs : Nat) {value : Nat} (h : ValidMillis (value / 1000)) :
    processTimestampField nowMs value = (true, value / 1000) := by
  have hdigits := digitCount_micros h
  rw [processTimestampField_eq, if_neg (not_inWindow_seconds hdigits (by decide)),
    if_neg (not_inWindow_millis hdigits (by decide)), if_pos h]

/-- Nanoseconds are not accepted: none of the three checks is for nineteen digits. -/
theorem processTimestampField_nanos (nowMs : Nat) {value : Nat} (h : ValidMillis (value / 1000000)) :
    processTimestampField nowMs value = (false, value) := by
  have hdigits := digitCount_nanos h
  simp [processTimestampField, isValidTimestamp, hdigits]

/-! ## Every unit -/

/-- The same instant, whatever unit it is written in; and nothing but instants of the window is accepted. -/
structure UnitIndependent (nowMs : Nat) : Prop where
  millis  : ∀ m, InWindow nowMs m → processTimestampField nowMs m = (true, m)
  micros  : ∀ m, InWindow nowMs m → ∀ r < 1000, processTimestampField nowMs (1000 * m + r) = (true, m)
  nanos   : ∀ m, InWindow nowMs m → ∀ r < 1000000, processTimestampField nowMs (1000000 * m + r) = (true, m)
  seconds : ∀ m, InWindow nowMs m → InWindow nowMs (1000 * (m / 1000)) →
    processTimestampField nowMs (m / 1000) = (true, 1000 * (m / 1000))
  sound   : ∀ value w, processTimestampField nowMs value = (true, w) → InWindow nowMs w

/-- The same of one value: what it must come out as in each unit. -/
structure Normalised (nowMs value : Nat) : Prop where
  millis  : InWindow nowMs value → processTimestampField nowMs value = (true, value)
  micros  : InWindow nowMs (value / 1000) → processTimestampField nowMs value = (true, value / 1000)
  nanos   : InWindow nowMs (value / 1000000) → processTimestampField nowMs value = (true, value / 1000000)
  seconds : InWindow nowMs (1000 * value) → processTimestampField nowMs value = (true, 1000 * value)
  sound   : ∀ w, processTimestampField nowMs value = (true, w) → InWindow nowMs w

theorem unitIndependent_iff_forall (nowMs : Nat) : UnitIndependent nowMs ↔ ∀ value, Normalised nowMs value := by
  constructor
  · intro h value
    refine ⟨h.millis value, fun hm => ?_, fun hm => ?_, fun hm => ?_, h.sound value⟩
    · have hvalue := h.micros _ hm (value % 1000) (Nat.mod_lt _ (by decide))
      rwa [Nat.div_add_mod] at hvalue
    · have hvalue := h.nanos _ hm (value % 1000000) (Nat.mod_lt _ (by decide))
      rwa [Nat.div_add_mod] at hvalue
    · have hdiv : 1000 * value / 1000 = value := Nat.mul_div_cancel_left value (by decide)
      have hvalue := h.seconds _ hm
      rw [hdiv] at hvalue
      exact hvalue hm
  · intro h
    refine ⟨fun m => (h m).millis, fun m hm r hr => ?_, fun m hm r hr => ?_, fun m _ => (h (m / 1000)).seconds,
      fun value => (h value).sound⟩
    · have hdiv : (1000 * m + r) / 1000 = m := by omega
      have hvalue := (h (1000 * m + r)).micros
      rw [hdiv] at hvalue
      exact hvalue hm
    · have hdiv : (1000000 * m + r) / 1000000 = m := by omega
      have hvalue := (h (1000000 * m + r)).nanos
      rw [hdiv] at hvalue
      exact hvalue hm

/-- **Which values come out right**: no nanoseconds of the window, and of the microseconds only those of the window
    or of no valid instant. -/
theorem normalised_iff (nowMs value : Nat) :
    Normalised nowMs value ↔
      ¬ InWindow nowMs (value / 1000000) ∧ (ValidMillis (value / 1000) → InWindow nowMs (value / 1000)) := by
  constructor
  · intro h
    refine ⟨fun hnanos => ?_, fun hmicros => ?_⟩
    · have haccepted := h.nanos hnanos
      rw [processTimestampField_nanos nowMs hnanos.inRange] at haccepted
      cases haccepted
    · exact h.sound _ (processTimestampField_micros nowMs hmicros)
  · rintro ⟨hnanos, hmicros⟩
    refine ⟨processTimestampField_millis, fun hwindow => processTimestampField_micros nowMs hwindow.inRange,
      fun hwindow => absurd hwindow hnanos, fun hwindow => ?_, fun w hw => ?_⟩
    · rw [Nat.mul_comm] at hwindow ⊢
      exact processTimestampField_seconds hwindow
    · -- what is accepted was accepted in one of three units
      rw [processTimestampField_eq] at hw
      split at hw
      next hseconds =>
        cases hw
        exact hseconds
      next =>
        split at hw
        next hmillis =>
          cases hw
          exact hmillis
        next =>
          split at hw
          next hrange =>
            cases hw
            exact hmicros hrange
          next => cases hw

/-- **Unit independence**, value by value: the whole of it is that every value comes out right, and a value does
    exactly when it is no nanosecond of the window and no microsecond of a valid instant outside. -/
theorem unit_independent_iff (nowMs : Nat) :
    (UnitIndependent nowMs ↔ ∀ value, Normalised nowMs value) ∧
    ∀ value, Normalised nowMs value ↔
      ¬ InWindow nowMs (value / 1000000) ∧ (ValidMillis (value / 1000) → InWindow nowMs (value / 1000)) :=
  ⟨unitIndependent_iff_forall nowMs, normalised_iff nowMs⟩

/-- In September 2025 the clock's own nanoseconds are no timestamp, and the microseconds of an instant of November
    2004 are one. -/
theorem not_unit_independent :
    ¬ UnitIndependent 1757545057527 ∧
    processTimestampField 1757545057527 1757545057527000000 = (false, 1757545057527000000) ∧
    processTimestampField 1757545057527 1100000000000000 = (true, 1100000000000) ∧
    ¬ InWindow 1757545057527 1100000000000 := by
  have hnanos : processTimestampField 1757545057527 1757545057527000000 = (false, 1757545057527000000) :=
    processTimestampField_nanos _ (by decide)
  refine ⟨fun h => ?_, hnanos, processTimestampField_micros _ (by decide), by decide⟩
  have haccepted := ((unitIndependent_iff_forall _).mp h 1757545057527000000).nanos (by decide)
  rw [hnanos] at haccepted
  cases haccepted

end Crypto
end TradingPlatform
