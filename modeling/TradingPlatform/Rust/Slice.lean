import Mathlib.Algebra.GroupWithZero.Nat
import Mathlib.Data.List.Infix

/-!
# `Rust.Slice` — lengths and slices of strings in bytes

`s.len()` counts the bytes of the UTF-8 encoding, and `&s[..n]` panics when `n` is past the end or inside a
character. A string is the list of its characters here, so a slice is a prefix of the list.
-/

namespace TradingPlatform
namespace Rust

/-- `s.len()` -/
def byteLen (s : List Char) : Nat := (s.map Char.utf8Size).sum

/-- `&s[..n]`, `none` where it panics. -/
def sliceTo : List Char → Nat → Option (List Char)
  | _, 0          => some []
  | [], _ + 1     => none
  | c :: cs, n + 1 =>
    if c.utf8Size ≤ n + 1 then (sliceTo cs (n + 1 - c.utf8Size)).map (c :: ·) else none

/-- `s.is_char_boundary(n)` -/
def IsCharBoundary (s : List Char) (n : Nat) : Prop := ∃ p ∈ s.inits, byteLen p = n

instance (s : List Char) (n : Nat) : Decidable (IsCharBoundary s n) :=
  inferInstanceAs (Decidable (∃ p ∈ s.inits, byteLen p = n))

@[simp] theorem byteLen_nil : byteLen [] = 0 := rfl

@[simp] theorem byteLen_cons (c : Char) (cs : List Char) : byteLen (c :: cs) = c.utf8Size + byteLen cs := by
  simp [byteLen]

@[simp] theorem byteLen_append (s t : List Char) : byteLen (s ++ t) = byteLen s + byteLen t := by
  simp [byteLen]

theorem byteLen_eq_zero {s : List Char} : byteLen s = 0 ↔ s = [] := by
  cases s with
  | nil => simp
  | cons c cs =>
      have hpos := Char.utf8Size_pos c
      simp
      omega

/-- ASCII characters take a byte each. -/
theorem byteLen_eq_length {s : List Char} (h : ∀ c ∈ s, c.utf8Size = 1) : byteLen s = s.length := by
  induction s with
  | nil => rfl
  | cons c cs ih =>
      obtain ⟨hc, hcs⟩ := List.forall_mem_cons.mp h
      rw [byteLen_cons, hc, ih hcs, List.length_cons, Nat.add_comm]

theorem isCharBoundary_iff {s : List Char} {n : Nat} : IsCharBoundary s n ↔ ∃ p, p <+: s ∧ byteLen p = n := by
  simp [IsCharBoundary]

/-- **A slice is the prefix of so many bytes**, if there is one. -/
theorem sliceTo_eq_some_iff {s p : List Char} {n : Nat} : sliceTo s n = some p ↔ p <+: s ∧ byteLen p = n := by
  induction s generalizing n p with
  | nil =>
      cases n with
      | zero =>
          simp only [sliceTo, Option.some.injEq, byteLen_eq_zero]
          constructor
          · rintro rfl
            exact ⟨List.prefix_rfl, rfl⟩
          · exact fun h => h.2.symm
      | succ n =>
          simp only [sliceTo, reduceCtorEq, false_iff]
          rintro ⟨hp, hlen⟩
          rw [List.prefix_nil.mp hp] at hlen
          simp at hlen
  | cons c cs ih =>
      have hpos := Char.utf8Size_pos c
      cases n with
      | zero =>
          simp only [sliceTo, Option.some.injEq, byteLen_eq_zero]
          constructor
          · rintro rfl
            exact ⟨List.nil_prefix, rfl⟩
          · exact fun h => h.2.symm
      | succ n =>
          unfold sliceTo
          constructor
          · intro h
            split_ifs at h with hfits
            obtain ⟨q, hq, rfl⟩ := Option.map_eq_some_iff.mp h
            obtain ⟨hbegins, hlen⟩ := ih.mp hq
            refine ⟨List.cons_prefix_cons.mpr ⟨rfl, hbegins⟩, ?_⟩
            rw [byteLen_cons, hlen]
            omega
          · rintro ⟨hbegins, hlen⟩
            cases p with
            | nil => simp at hlen
            | cons d q =>
                obtain ⟨rfl, hq⟩ := List.cons_prefix_cons.mp hbegins
                rw [byteLen_cons] at hlen
                have hrest : sliceTo cs (n + 1 - d.utf8Size) = some q := ih.mpr ⟨hq, by omega⟩
                rw [if_pos (by omega), hrest]
                rfl

theorem isSome_sliceTo {s : List Char} {n : Nat} : (sliceTo s n).isSome = true ↔ IsCharBoundary s n := by
  rw [Option.isSome_iff_exists, isCharBoundary_iff]
  exact exists_congr fun p => sliceTo_eq_some_iff

/-- A slice that ends in the first part of a string. -/
theorem sliceTo_append_left {s t : List Char} {n : Nat} (h : n ≤ byteLen s) : sliceTo (s ++ t) n = sliceTo s n := by
  induction s generalizing n with
  | nil =>
      obtain rfl : n = 0 := Nat.le_zero.mp h
      cases t <;> rfl
  | cons c s ih =>
      cases n with
      | zero => rfl
      | succ n =>
          rw [byteLen_cons] at h
          rw [List.cons_append, sliceTo, sliceTo]
          split_ifs
          · rw [ih (by omega)]
          · rfl

/-- A slice that ends in the second part. -/
theorem sliceTo_append_right (s t : List Char) (n : Nat) :
    sliceTo (s ++ t) (byteLen s + n) = (sliceTo t n).map (s ++ ·) := by
  induction s with
  | nil => simp
  | cons c s ih =>
      have hpos := Char.utf8Size_pos c
      obtain ⟨k, hk⟩ : ∃ k, byteLen (c :: s) + n = k + 1 := ⟨byteLen (c :: s) + n - 1, by rw [byteLen_cons]; omega⟩
      have hrest : k + 1 - c.utf8Size = byteLen s + n := by
        rw [byteLen_cons] at hk
        omega
      have hfits : c.utf8Size ≤ k + 1 := by
        rw [byteLen_cons] at hk
        omega
      rw [hk, List.cons_append, sliceTo, if_pos hfits, hrest, ih, Option.map_map]
      rfl

/-- ASCII has a boundary everywhere. -/
theorem isCharBoundary_of_ascii {s : List Char} (h : ∀ c ∈ s, c.utf8Size = 1) {n : Nat} (hn : n ≤ byteLen s) :
    IsCharBoundary s n := by
  rw [byteLen_eq_length h] at hn
  refine isCharBoundary_iff.mpr ⟨s.take n, List.take_prefix n s, ?_⟩
  rw [byteLen_eq_length fun c hc => h c (List.mem_of_mem_take hc), List.length_take, Nat.min_eq_left hn]

end Rust
end TradingPlatform
