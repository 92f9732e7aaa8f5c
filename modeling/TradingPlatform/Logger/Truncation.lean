import TradingPlatform.Rust.Slice

/-!
# `Logger.Truncation` — cutting texts for the log

`truncate_for_log` cuts a text that does not fit at a byte offset and says how long it was. The offset leaves 25 bytes
for that: enough while the length has up to five digits, and a panic when the offset is inside a character.
-/

namespace TradingPlatform
namespace Logger

open Rust

/-- `...[TRUNCATED_{len}chars]` -/
def truncatedMark (len : Nat) : List Char := "...[TRUNCATED_".toList ++ Nat.toDigits 10 len ++ "chars]".toList

/-- `none` is a panic. -/
def truncateForLog (text : List Char) (maxLen : Nat) : Option (List Char) :=
  if byteLen text ≤ maxLen then some text
  else (sliceTo text (maxLen - 25)).map fun kept => kept ++ truncatedMark (byteLen text)

/-! ## The mark -/

theorem utf8Size_of_mem_toDigits {n : Nat} {c : Char} (h : c ∈ Nat.toDigits 10 n) : c.utf8Size = 1 := by
  have hdigit : c.isDigit = true := Nat.isDigit_of_mem_toDigits (by decide) (Nat.le_refl 10) h
  rw [Char.utf8Size_eq_one_iff]
  simp only [Char.isDigit, Bool.and_eq_true, decide_eq_true_eq] at hdigit
  exact UInt32.le_trans hdigit.2 (by decide)

theorem byteLen_truncatedMark (n : Nat) : byteLen (truncatedMark n) = 20 + (Nat.toDigits 10 n).length := by
  have hopening : byteLen "...[TRUNCATED_".toList = 14 := by decide
  have hclosing : byteLen "chars]".toList = 6 := by decide
  unfold truncatedMark
  rw [byteLen_append, byteLen_append, byteLen_eq_length fun c hc => utf8Size_of_mem_toDigits hc, hopening, hclosing]
  omega

/-- The mark fits into the 25 bytes left for it up to five digits. -/
theorem byteLen_truncatedMark_le_iff (n : Nat) : byteLen (truncatedMark n) ≤ 25 ↔ n < 100000 := by
  rw [byteLen_truncatedMark, ← @Nat.length_toDigits_le_iff 10 n 5 (by decide) (by decide)]
  omega

/-! ## The limit -/

/-- What a truncation should give: a text within the limit, the text itself if it fits, else one that begins with
    what fits before the mark. -/
def Truncated (text : List Char) (maxLen : Nat) (result : Option (List Char)) : Prop :=
  ∃ r, result = some r ∧ byteLen r ≤ maxLen ∧ (byteLen text ≤ maxLen → r = text) ∧
    (maxLen < byteLen text → ∃ kept, kept <+: text ∧ byteLen kept = maxLen - 25 ∧ kept <+: r)

/-- **Truncation is total and within its limit** exactly for the texts that fit, and for those of less than 100000
    bytes that have a character boundary 25 bytes before the limit. -/
theorem truncated_iff {maxLen : Nat} (hmax : 25 ≤ maxLen) (text : List Char) :
    Truncated text maxLen (truncateForLog text maxLen) ↔
      byteLen text ≤ maxLen ∨ (IsCharBoundary text (maxLen - 25) ∧ byteLen text < 100000) := by
  unfold Truncated truncateForLog
  by_cases hfits : byteLen text ≤ maxLen
  · rw [if_pos hfits]
    exact ⟨fun _ => .inl hfits, fun _ => ⟨text, rfl, hfits, fun _ => rfl, fun h => absurd hfits (Nat.not_le.mpr h)⟩⟩
  rw [if_neg hfits]
  constructor
  · rintro ⟨r, hr, hlimit, -, -⟩
    obtain ⟨kept, hkept, rfl⟩ := Option.map_eq_some_iff.mp hr
    obtain ⟨hbegins, hlen⟩ := sliceTo_eq_some_iff.mp hkept
    rw [byteLen_append, hlen] at hlimit
    have hmark : byteLen (truncatedMark (byteLen text)) ≤ 25 := by omega
    exact .inr ⟨isCharBoundary_iff.mpr ⟨kept, hbegins, hlen⟩, (byteLen_truncatedMark_le_iff _).mp hmark⟩
  · rintro (hle | ⟨hboundary, hshort⟩)
    · exact absurd hle hfits
    · obtain ⟨kept, hbegins, hlen⟩ := isCharBoundary_iff.mp hboundary
      have hmark := (byteLen_truncatedMark_le_iff _).mpr hshort
      refine ⟨kept ++ truncatedMark (byteLen text), ?_, ?_, fun h => absurd h hfits, fun _ => ?_⟩
      · rw [sliceTo_eq_some_iff.mpr ⟨hbegins, hlen⟩]
        rfl
      · rw [byteLen_append, hlen]
        omega
      · exact ⟨kept, hbegins, hlen, List.prefix_append _ _⟩

/-- 104 letters, cut at a boundary. -/
theorem truncated_letters :
    Truncated (List.replicate 104 'a') 100 (truncateForLog (List.replicate 104 'a') 100) :=
  (@truncated_iff 100 (by decide) _).mpr (by decide +kernel)

/-- 51 letters of two bytes: the cut at byte 75 is inside the 38th. -/
theorem truncated_accents_panics :
    truncateForLog (List.replicate 51 'é') 100 = none ∧
    ¬ Truncated (List.replicate 51 'é') 100 (truncateForLog (List.replicate 51 'é') 100) := by
  have hpanic : truncateForLog (List.replicate 51 'é') 100 = none := by decide +kernel
  refine ⟨hpanic, ?_⟩
  rintro ⟨r, hr, -⟩
  rw [hpanic] at hr
  cases hr

end Logger
end TradingPlatform
