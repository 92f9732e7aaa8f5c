import TradingPlatform.Library.Ranks
import TradingPlatform.Rust.Collect
import TradingPlatform.Rust.Ieee

/-!
# `Engine.Latency` — the latency statistics of the monitoring

`LatencyTracker` keeps a count and a sum of all latencies, and a reservoir of some of them. Once the reservoir is
full, a latency either replaces a sample at random or is not kept. The average is that of all latencies and the
percentiles are between the extremes of all, in any run. The maximum is that of the reservoir: it is that of all
latencies exactly as long as no sample is overwritten that is larger than everything else, and nothing larger than
all samples is left out (`stats_exact_iff`).

What panics is `none`. What the random source gives is an input.
-/

namespace TradingPlatform
namespace Engine

open Rust Ranks

structure LatencyTracker where
  samples      : List Nat
  maxSamples   : Nat
  totalSamples : Nat
  sum          : Nat
deriving DecidableEq

namespace LatencyTracker

def new (maxSamples : Nat) : LatencyTracker := { samples := [], maxSamples, totalSamples := 0, sum := 0 }

/-- `gen_range(0..n)`: what the source gives, brought into the range. -/
def genRange (random n : Nat) : Nat := random % n

/-- The reservoir with one more latency, the `total`-th. -/
def place (samples : List Nat) (maxSamples total latencyUs random : Nat) : List Nat :=
  if samples.length < maxSamples then samples ++ [latencyUs]
  else if genRange random total < maxSamples then samples.set (genRange random total) latencyUs
  else samples

def record (profile : Profile) (t : LatencyTracker) (latencyUs random : Nat) : Option LatencyTracker := do
  let sum ← profile.unsigned 64 (t.sum + latencyUs)
  let totalSamples := t.totalSamples + 1
  return { t with samples := place t.samples t.maxSamples totalSamples latencyUs random, totalSamples, sum }

/-- Sorts the reservoir. -/
def percentile (t : LatencyTracker) (p : F64) : Option (LatencyTracker × Nat) :=
  if t.samples = [] then some (t, 0)
  else do
    let samples := sorted t.samples
    let idx := (.finite (samples.length - 1 : Nat) * p / 100 : F64).asUsize
    let sample ← samples[idx]?
    return ({ t with samples }, sample)

def average (t : LatencyTracker) : Nat := if t.totalSamples = 0 then 0 else t.sum / t.totalSamples

def max (t : LatencyTracker) : Nat := t.samples.max?.getD 0

end LatencyTracker

/-- A percentage. -/
structure Percentage where
  p       : ℚ
  nonneg  : 0 ≤ p
  le_full : p ≤ 100

inductive LatencyCall where
  | record (latencyUs random : Nat)
  | percentile (p : Percentage)

def LatencyCall.latency? : LatencyCall → Option Nat
  | .record latencyUs _ => some latencyUs
  | .percentile _       => none

/-- The latencies recorded. -/
def recorded (calls : List LatencyCall) : List Nat := calls.filterMap LatencyCall.latency?

namespace LatencyTracker

def step (profile : Profile) (t : LatencyTracker) : LatencyCall → Option LatencyTracker
  | .record latencyUs random => t.record profile latencyUs random
  | .percentile p            => (t.percentile (.finite p.p)).map Prod.fst

def after (profile : Profile) (maxSamples : Nat) (calls : List LatencyCall) : Option LatencyTracker :=
  calls.foldlM (step profile) (new maxSamples)

/-- What a percentile returns. -/
def value (t : LatencyTracker) (p : Percentage) : Option Nat := (t.percentile (.finite p.p)).map Prod.snd

/-- The tracker after some percentiles have been asked for. -/
def asked (t : LatencyTracker) (queries : List Percentage) : Option LatencyTracker :=
  queries.foldlM (fun t p => (t.percentile (.finite p.p)).map Prod.fst) t

/-! ## What the statistics are to be -/

/-- The statistics are those of all latencies. Percentiles are in order also if others are asked for in between. -/
structure StatsExact (t : LatencyTracker) (latencies : List Nat) : Prop where
  max      : t.max = largest latencies
  average  : t.average = latencies.sum / latencies.length
  bounded  : ∀ p, ∃ v, t.value p = some v ∧ smallest latencies ≤ v ∧ v ≤ largest latencies
  monotone : ∀ queries t', t.asked queries = some t' → ∀ p q : Percentage, p.p ≤ q.p → ∀ v w,
    (t.value p = some v → t'.value q = some w → v ≤ w) ∧ (t'.value p = some v → t.value q = some w → v ≤ w)

/-- Every call returns, and the statistics are exact after any number of them. -/
def ExactThroughout (profile : Profile) (maxSamples : Nat) (calls : List LatencyCall) : Prop :=
  ∀ k ≤ calls.length, ∃ t,
    after profile maxSamples (calls.take k) = some t ∧ t.StatsExact (recorded (calls.take k))

/-- The sample in this place is at most the latency, or at most another sample. -/
def Dispensable (samples : List Nat) (idx latencyUs : Nat) : Prop :=
  ∀ old ∈ samples[idx]?, old ≤ latencyUs ∨ ∃ other ∈ samples.eraseIdx idx, old ≤ other

instance (samples : List Nat) (idx latencyUs : Nat) : Decidable (Dispensable samples idx latencyUs) :=
  inferInstanceAs (Decidable (∀ _ ∈ _, _))

/-- When there is no room for a latency, the sample it replaces is dispensable; and if it replaces none, it is at most
    some sample. -/
def KeepsMax (t : LatencyTracker) : LatencyCall → Prop
  | .percentile _            => True
  | .record latencyUs random => t.samples.length < t.maxSamples ∨
    if genRange random (t.totalSamples + 1) < t.maxSamples then
      Dispensable t.samples (genRange random (t.totalSamples + 1)) latencyUs
    else ∃ sample ∈ t.samples, latencyUs ≤ sample

instance (t : LatencyTracker) : (call : LatencyCall) → Decidable (t.KeepsMax call)
  | .percentile _ => inferInstanceAs (Decidable True)
  | .record ..    => inferInstanceAs (Decidable (_ ∨ _))

/-- Every call keeps the maximum. -/
def KeepsMaxThroughout (profile : Profile) (maxSamples : Nat) (calls : List LatencyCall) : Prop :=
  ∀ k < calls.length, ∀ t ∈ after profile maxSamples (calls.take k), ∀ call ∈ calls[k]?, t.KeepsMax call

instance (profile : Profile) (maxSamples : Nat) (calls : List LatencyCall) :
    Decidable (KeepsMaxThroughout profile maxSamples calls) := inferInstanceAs (Decidable (∀ _ < _, _))

/-! ## Percentiles -/

/-- The place of a percentile among the samples. -/
def rankOf (n : Nat) (p : Percentage) : Nat := (.finite (n - 1 : Nat) * .finite p.p / 100 : F64).asUsize

theorem rankOf_eq (n : Nat) (p : Percentage) :
    rankOf n p = Nat.min ⌊((n - 1 : Nat) : ℚ) * p.p / 100⌋.toNat (2 ^ 64 - 1) := by
  have hnonneg : (0 : ℚ) ≤ ((n - 1 : Nat) : ℚ) * p.p / 100 :=
    div_nonneg (mul_nonneg (Nat.cast_nonneg _) p.nonneg) (by norm_num)
  have hdiv : (.finite (n - 1 : Nat) * .finite p.p / 100 : F64) = .finite (((n - 1 : Nat) : ℚ) * p.p / 100) :=
    F64.finite_div (by norm_num)
  rw [rankOf, hdiv, ← truncated_eq_floor hnonneg]
  rfl

theorem rankOf_mono (n : Nat) {p q : Percentage} (h : p.p ≤ q.p) : rankOf n p ≤ rankOf n q := by
  have hle : ((n - 1 : Nat) : ℚ) * p.p / 100 ≤ ((n - 1 : Nat) : ℚ) * q.p / 100 := by
    have hmul : ((n - 1 : Nat) : ℚ) * p.p ≤ ((n - 1 : Nat) : ℚ) * q.p :=
      mul_le_mul_of_nonneg_left h (Nat.cast_nonneg _)
    linarith
  have hfloor := Int.floor_mono hle
  rw [rankOf_eq, rankOf_eq]
  exact Nat.le_min.mpr ⟨Nat.le_trans (Nat.min_le_left ..) (Int.toNat_le_toNat hfloor), Nat.min_le_right ..⟩

/-- No percentile is behind the last sample. -/
theorem rankOf_lt {n : Nat} (h : 0 < n) (p : Percentage) : rankOf n p < n := by
  have hle : ((n - 1 : Nat) : ℚ) * p.p / 100 ≤ ((n - 1 : Nat) : Int) := by
    have hmul : ((n - 1 : Nat) : ℚ) * p.p ≤ ((n - 1 : Nat) : ℚ) * 100 :=
      mul_le_mul_of_nonneg_left p.le_full (Nat.cast_nonneg _)
    push_cast
    linarith
  have hfloor : ⌊((n - 1 : Nat) : ℚ) * p.p / 100⌋ ≤ ((n - 1 : Nat) : Int) := by
    have hmono := Int.floor_mono hle
    rwa [Int.floor_intCast] at hmono
  rw [rankOf_eq]
  exact Nat.lt_of_le_of_lt (Nat.min_le_left ..) (by omega)

theorem percentile_of_empty {t : LatencyTracker} (h : t.samples = []) (p : F64) : t.percentile p = some (t, 0) :=
  if_pos h

/-- A percentile sorts the samples and returns one of them. -/
theorem percentile_eq {t : LatencyTracker} (h : t.samples ≠ []) (p : Percentage) :
    ∃ v, ranked t.samples (rankOf t.samples.length p) = some v ∧
      t.percentile (.finite p.p) = some ({ t with samples := sorted t.samples }, v) := by
  obtain ⟨v, hv⟩ := exists_ranked (rankOf_lt (List.length_pos_iff.mpr h) p)
  refine ⟨v, hv, ?_⟩
  have hsample : (sorted t.samples)[rankOf (sorted t.samples).length p]? = some v := by
    rw [length_sorted]
    exact hv
  unfold percentile
  rw [if_neg h]
  dsimp only
  show ((sorted t.samples)[rankOf (sorted t.samples).length p]? >>= fun sample =>
    pure ({ t with samples := sorted t.samples }, sample)) = _
  rw [hsample]
  rfl

/-- What a percentile returns depends on the samples only, whatever their order. -/
theorem value_eq (t : LatencyTracker) (p : Percentage) :
    t.value p = if t.samples = [] then some 0 else ranked t.samples (rankOf t.samples.length p) := by
  unfold value
  split
  next h => rw [percentile_of_empty h, Option.map_some]
  next h =>
    obtain ⟨v, hv, hpercentile⟩ := percentile_eq h p
    rw [hpercentile, hv, Option.map_some]

/-- Asking changes no answer. -/
theorem value_percentile {t t' : LatencyTracker} {q : Percentage}
    (h : (t.percentile (.finite q.p)).map Prod.fst = some t') (p : Percentage) : t'.value p = t.value p := by
  by_cases hempty : t.samples = []
  · rw [percentile_of_empty hempty] at h
    obtain rfl : t = t' := Option.some.inj h
    rfl
  · obtain ⟨v, -, hpercentile⟩ := percentile_eq hempty q
    rw [hpercentile, Option.map_some, Option.some.injEq] at h
    have hsorted : sorted t.samples ≠ [] := by
      intro hnil
      exact hempty (List.length_eq_zero_iff.mp ((length_sorted _).symm.trans (List.length_eq_zero_iff.mpr hnil)))
    rw [← h, value_eq, value_eq, if_neg hempty]
    dsimp only
    rw [if_neg hsorted, ranked_sorted, length_sorted]

theorem value_asked {t t' : LatencyTracker} {queries : List Percentage} (h : t.asked queries = some t')
    (p : Percentage) : t'.value p = t.value p := by
  induction queries generalizing t with
  | nil =>
      cases h
      rfl
  | cons q queries ih =>
      unfold asked at h
      rw [List.foldlM_cons, Option.bind_eq_bind, Option.bind_eq_some_iff] at h
      obtain ⟨t₁, hfirst, hrest⟩ := h
      rw [ih hrest, value_percentile hfirst]

/-- **Percentiles are in order.** -/
theorem value_mono {t : LatencyTracker} {p q : Percentage} (h : p.p ≤ q.p) {v w : Nat} (hv : t.value p = some v)
    (hw : t.value q = some w) : v ≤ w := by
  rw [value_eq] at hv hw
  split at hv
  next hempty =>
    cases hv
    exact Nat.zero_le w
  next hempty =>
    rw [if_neg hempty] at hw
    exact ranked_mono (rankOf_mono _ h) hv hw

/-! ## What every run keeps -/

/-- The count and the sum are those of all latencies, and the samples are some of them. -/
structure Sound (t : LatencyTracker) (maxSamples : Nat) (latencies : List Nat) : Prop where
  fixed : t.maxSamples = maxSamples
  total : t.totalSamples = latencies.length
  sum   : t.sum = latencies.sum
  size  : t.samples.length = min maxSamples latencies.length
  kept  : ∀ sample ∈ t.samples, sample ∈ latencies

theorem Sound.new (maxSamples : Nat) : Sound (new maxSamples) maxSamples [] where
  fixed := rfl
  total := rfl
  sum   := rfl
  size  := (Nat.min_zero maxSamples).symm
  kept  := nofun

section Place

variable {samples : List Nat} {maxSamples total latencyUs random : Nat}

theorem length_place : (place samples maxSamples total latencyUs random).length =
    if samples.length < maxSamples then samples.length + 1 else samples.length := by
  unfold place
  split
  · rw [List.length_append, List.length_singleton]
  · split
    · exact List.length_set
    · rfl

theorem mem_place {sample : Nat} (h : sample ∈ place samples maxSamples total latencyUs random) :
    sample ∈ samples ∨ sample = latencyUs := by
  unfold place at h
  split at h
  · rcases List.mem_append.mp h with h | h
    · exact Or.inl h
    · exact Or.inr (List.mem_singleton.mp h)
  · split at h
    · exact List.mem_or_eq_of_mem_set h
    · exact Or.inl h

end Place

/-- **A latency is recorded**, as long as the sum fits. -/
theorem Sound.record {t : LatencyTracker} {maxSamples : Nat} {latencies : List Nat} (h : t.Sound maxSamples latencies)
    {latencyUs : Nat} (hsum : latencies.sum + latencyUs < 2 ^ 64) (profile : Profile) (random : Nat) :
    ∃ t', t.record profile latencyUs random = some t' ∧ t'.Sound maxSamples (latencies ++ [latencyUs]) ∧
      t'.samples = place t.samples t.maxSamples (t.totalSamples + 1) latencyUs random := by
  have hfits : t.sum + latencyUs < 2 ^ 64 := by
    rw [h.sum]
    exact hsum
  refine ⟨{ t with samples := place t.samples t.maxSamples (t.totalSamples + 1) latencyUs random
                   totalSamples := t.totalSamples + 1
                   sum := t.sum + latencyUs }, ?_, ?_, rfl⟩
  · rw [LatencyTracker.record, Profile.unsigned_eq hfits]
    rfl
  · refine ⟨h.fixed, ?_, ?_, ?_, ?_⟩
    · rw [List.length_append, List.length_singleton, ← h.total]
    · rw [List.sum_append, List.sum_singleton, ← h.sum]
    · have hsize := h.size
      show (place _ _ _ _ _).length = _
      rw [length_place, hsize, h.fixed, List.length_append, List.length_singleton]
      simp only [Nat.min_def]
      split <;> split <;> split <;> omega
    · intro sample hsample
      rcases mem_place hsample with hold | rfl
      · exact List.mem_append_left _ (h.kept sample hold)
      · exact List.mem_append_right _ (List.mem_singleton.mpr rfl)

theorem Sound.percentile {t : LatencyTracker} {maxSamples : Nat} {latencies : List Nat}
    (h : t.Sound maxSamples latencies) (p : Percentage) :
    ∃ t', (t.percentile (.finite p.p)).map Prod.fst = some t' ∧ t'.Sound maxSamples latencies ∧
      t'.samples.Perm t.samples := by
  by_cases hempty : t.samples = []
  · exact ⟨t, by rw [percentile_of_empty hempty, Option.map_some], h, List.Perm.refl _⟩
  · obtain ⟨v, -, hpercentile⟩ := percentile_eq hempty p
    refine ⟨{ t with samples := sorted t.samples }, ?_, ?_, sorted_perm _⟩
    · rw [hpercentile, Option.map_some]
    · refine ⟨h.fixed, h.total, h.sum, (length_sorted _).trans h.size, ?_⟩
      intro sample hsample
      exact h.kept sample ((sorted_perm _).mem_iff.mp hsample)

/-- All but the maximum is exact in any case. -/
theorem Sound.statsExact_iff {t : LatencyTracker} {maxSamples : Nat} {latencies : List Nat}
    (hcapacity : 1 ≤ maxSamples) (h : t.Sound maxSamples latencies) :
    t.StatsExact latencies ↔ t.max = largest latencies := by
  refine ⟨fun hexact => hexact.max, fun hmax => ⟨hmax, ?_, fun p => ?_, ?_⟩⟩
  · unfold average
    rw [h.total, h.sum]
    split
    next hnone => rw [hnone, Nat.div_zero]
    next => rfl
  · by_cases hempty : t.samples = []
    · -- the reservoir is empty only if nothing was recorded
      have hsize := h.size
      rw [hempty, List.length_nil, Nat.min_def] at hsize
      have hnone : latencies = [] := by
        apply List.length_eq_zero_iff.mp
        split at hsize <;> omega
      refine ⟨0, ?_, ?_, Nat.zero_le _⟩
      · rw [value_eq, if_pos hempty]
      · rw [hnone]
        exact Nat.le_refl 0
    · obtain ⟨v, hv, -⟩ := percentile_eq hempty p
      have hkept := h.kept v (ranked_mem hv)
      refine ⟨v, ?_, smallest_le hkept, le_largest hkept⟩
      rw [value_eq, if_neg hempty]
      exact hv
  · intro queries t' hasked p q hpq v w
    rw [value_asked hasked, value_asked hasked]
    exact ⟨value_mono hpq, value_mono hpq⟩

/-! ## The maximum -/

/-- **When the maximum survives a latency.** -/
theorem largest_place_iff {t : LatencyTracker} {maxSamples : Nat} {latencies : List Nat}
    (hcapacity : 1 ≤ maxSamples) (h : t.Sound maxSamples latencies) (latencyUs random : Nat) :
    largest (place t.samples t.maxSamples (t.totalSamples + 1) latencyUs random)
        = Nat.max (largest t.samples) latencyUs ↔
      t.KeepsMax (.record latencyUs random) := by
  unfold place KeepsMax
  dsimp only
  by_cases hroom : t.samples.length < t.maxSamples
  · rw [if_pos hroom]
    exact iff_of_true (largest_concat ..) (Or.inl hroom)
  · have hfull : t.maxSamples ≤ t.samples.length := Nat.le_of_not_lt hroom
    rw [if_neg hroom, or_iff_right hroom]
    by_cases hplaced : genRange random (t.totalSamples + 1) < t.maxSamples
    · rw [if_pos hplaced, if_pos hplaced]
      have hold : t.samples[genRange random (t.totalSamples + 1)]? = some _ :=
        List.getElem?_eq_getElem (Nat.lt_of_lt_of_le hplaced hfull)
      constructor
      · intro heq old hold'
        exact (largest_set_iff hold' latencyUs).mp heq
      · intro hdispensable
        exact (largest_set_iff hold latencyUs).mpr (hdispensable _ hold)
    · rw [if_neg hplaced, if_neg hplaced]
      have hnonempty : t.samples ≠ [] := by
        intro hnil
        rw [hnil, h.fixed] at hfull
        exact absurd hfull (Nat.not_le.mpr hcapacity)
      exact largest_eq_max_iff hnonempty latencyUs

/-- A call keeps the maximum exact under its condition, and only then. -/
theorem Sound.step {t : LatencyTracker} {maxSamples : Nat} {latencies : List Nat} (hcapacity : 1 ≤ maxSamples)
    (h : t.Sound maxSamples latencies) (profile : Profile) {call : LatencyCall}
    (hsum : (latencies ++ call.latency?.toList).sum < 2 ^ 64) :
    ∃ t', t.step profile call = some t' ∧ t'.Sound maxSamples (latencies ++ call.latency?.toList) ∧
      (t.max = largest latencies → (t'.max = largest (latencies ++ call.latency?.toList) ↔ t.KeepsMax call)) := by
  cases call with
  | record latencyUs random =>
      have hfits : latencies.sum + latencyUs < 2 ^ 64 := by
        rwa [LatencyCall.latency?, Option.toList_some, List.sum_append, List.sum_singleton] at hsum
      obtain ⟨t', hrecord, hsound, hsamples⟩ := h.record hfits profile random
      refine ⟨t', hrecord, hsound, fun hmax => ?_⟩
      have hiff := largest_place_iff hcapacity h latencyUs random
      have htop : largest t.samples = largest latencies := hmax
      rw [← hsamples, htop] at hiff
      show largest t'.samples = largest (latencies ++ [latencyUs]) ↔ _
      rw [largest_concat]
      exact hiff
  | percentile p =>
      obtain ⟨t', hasked, hsound, hperm⟩ := h.percentile p
      have hsame : latencies ++ (LatencyCall.percentile p).latency?.toList = latencies := List.append_nil _
      rw [hsame]
      refine ⟨t', hasked, hsound, fun hmax => iff_of_true ?_ trivial⟩
      exact (largest_perm hperm).trans hmax

/-! ## Runs -/

section Runs

variable {profile : Profile} {maxSamples : Nat} {calls : List LatencyCall}

theorem recorded_concat (calls : List LatencyCall) (call : LatencyCall) :
    recorded (calls ++ [call]) = recorded calls ++ call.latency?.toList := by
  unfold recorded
  rw [List.filterMap_append]
  rfl

theorem after_concat (profile : Profile) (maxSamples : Nat) (calls : List LatencyCall) (call : LatencyCall) :
    after profile maxSamples (calls ++ [call]) =
      (after profile maxSamples calls).bind fun t => t.step profile call :=
  foldlM_concat ..

/-- A run returns, and what it keeps is sound. -/
theorem exists_after (hcapacity : 1 ≤ maxSamples) (hsum : (recorded calls).sum < 2 ^ 64) :
    ∃ t, after profile maxSamples calls = some t ∧ t.Sound maxSamples (recorded calls) := by
  induction calls using List.reverseRecOn with
  | nil => exact ⟨_, rfl, Sound.new maxSamples⟩
  | append_singleton calls call ih =>
      rw [recorded_concat] at hsum ⊢
      have hbefore : (recorded calls).sum < 2 ^ 64 := by
        rw [List.sum_append] at hsum
        omega
      obtain ⟨t, hafter, hsound⟩ := ih hbefore
      obtain ⟨t', hstep, hsound', -⟩ := hsound.step hcapacity profile hsum
      refine ⟨t', ?_, hsound'⟩
      rw [after_concat, hafter, Option.bind_some, hstep]

theorem recorded_take_fits (k : Nat) (hsum : (recorded calls).sum < 2 ^ 64) :
    (recorded (calls.take k)).sum < 2 ^ 64 := by
  have hsplit : recorded calls = recorded (calls.take k) ++ recorded (calls.drop k) := by
    unfold recorded
    rw [← List.filterMap_append, List.take_append_drop]
  rw [hsplit, List.sum_append] at hsum
  omega

/-- The maximum before and after one of the calls. -/
theorem exists_after_call (profile : Profile) (hcapacity : 1 ≤ maxSamples) (hsum : (recorded calls).sum < 2 ^ 64)
    {k : Nat} (hk : k < calls.length) :
    ∃ t t', after profile maxSamples (calls.take k) = some t ∧
      after profile maxSamples (calls.take (k + 1)) = some t' ∧
      (t.max = largest (recorded (calls.take k)) →
        (t'.max = largest (recorded (calls.take (k + 1))) ↔ t.KeepsMax calls[k])) := by
  have hnext : calls.take (k + 1) = calls.take k ++ [calls[k]] := List.take_succ_eq_append_getElem hk
  have hfits := recorded_take_fits (k + 1) hsum
  obtain ⟨t, hafter, hsound⟩ := @exists_after profile maxSamples (calls.take k) hcapacity (recorded_take_fits k hsum)
  rw [hnext, recorded_concat] at hfits ⊢
  obtain ⟨t', hstep, -, hiff⟩ := hsound.step hcapacity profile hfits
  refine ⟨t, t', hafter, ?_, hiff⟩
  rw [after_concat, hafter, Option.bind_some, hstep]

/-- All there is to exact statistics is the maximum. -/
theorem exactThroughout_iff (hcapacity : 1 ≤ maxSamples) (hsum : (recorded calls).sum < 2 ^ 64) :
    ExactThroughout profile maxSamples calls ↔
      ∀ k ≤ calls.length, ∀ t ∈ after profile maxSamples (calls.take k),
        t.max = largest (recorded (calls.take k)) := by
  constructor
  · intro hexact k hk t hafter
    obtain ⟨t', hafter', hstats⟩ := hexact k hk
    obtain rfl : t' = t := Option.some.inj (hafter'.symm.trans hafter)
    exact hstats.max
  · intro hmax k hk
    obtain ⟨t, hafter, hsound⟩ := exists_after hcapacity (recorded_take_fits k hsum)
    exact ⟨t, hafter, (hsound.statsExact_iff hcapacity).mpr (hmax k hk t hafter)⟩

/-- **Exact statistics**: whatever is recorded and asked for, and whatever is drawn, the statistics are those of all
    latencies exactly as long as every call keeps the maximum. -/
theorem stats_exact_iff (profile : Profile) {maxSamples : Nat} (hcapacity : 1 ≤ maxSamples)
    {calls : List LatencyCall} (hsum : (recorded calls).sum < 2 ^ 64) :
    ExactThroughout profile maxSamples calls ↔ KeepsMaxThroughout profile maxSamples calls := by
  rw [exactThroughout_iff hcapacity hsum]
  constructor
  · intro hmax k hk t hafter call hcall
    obtain ⟨t₀, t', hbefore, hafter', hiff⟩ := exists_after_call profile hcapacity hsum hk
    obtain rfl : t₀ = t := Option.some.inj (hbefore.symm.trans hafter)
    obtain rfl : calls[k] = call := Option.some.inj ((List.getElem?_eq_getElem hk).symm.trans hcall)
    exact (hiff (hmax k (Nat.le_of_lt hk) t₀ hbefore)).mp (hmax (k + 1) hk t' hafter')
  · intro hkeeps k hk
    -- the maximum is exact at the start and stays so, call by call
    induction k with
    | zero =>
        rintro t ⟨⟩
        rfl
    | succ k ih =>
        intro t hafter
        obtain ⟨t₀, t', hbefore, hafter', hiff⟩ := exists_after_call profile hcapacity hsum hk
        obtain rfl : t' = t := Option.some.inj (hafter'.symm.trans hafter)
        have hcall := hkeeps k hk t₀ hbefore calls[k] (List.getElem?_eq_getElem hk)
        exact (hiff (ih (Nat.le_of_lt hk) t₀ hbefore)).mpr hcall

def half : Percentage := { p := 50, nonneg := by decide, le_full := by decide }

/-- Two samples: 7 takes the place of 5, and 3 is left out. -/
theorem stats_exact_iff_two :
    ExactThroughout .dev 2 [.record 5 0, .record 9 0, .record 7 0, .percentile half, .record 3 2] :=
  (stats_exact_iff .dev (by decide) (by decide +kernel)).mpr (by decide +kernel)

/-- One sample: the second latency is not kept, and the maximum is that of the first. -/
theorem largest_left_out :
    ¬ ExactThroughout .release 1 [.record 5 0, .record 9 1] ∧
    (after .release 1 [.record 5 0, .record 9 1]).map LatencyTracker.max = some 5 ∧
    largest (recorded [.record 5 0, .record 9 1]) = 9 := by
  have hmax : (after .release 1 [.record 5 0, .record 9 1]).map LatencyTracker.max = some 5 := by decide +kernel
  have hlargest : largest (recorded [.record 5 0, .record 9 1]) = 9 := by decide +kernel
  refine ⟨fun h => ?_, hmax, hlargest⟩
  obtain ⟨t, hafter, hstats⟩ := h 2 (Nat.le_refl 2)
  rw [List.take_of_length_le (Nat.le_refl 2)] at hafter hstats
  rw [hafter, Option.map_some, hstats.max, hlargest] at hmax
  cases hmax

end Runs

end LatencyTracker

end Engine
end TradingPlatform
