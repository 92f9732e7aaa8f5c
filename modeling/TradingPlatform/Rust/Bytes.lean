import Mathlib.Algebra.Group.Int.Defs
import Mathlib.Algebra.Group.Nat.Defs
import Mathlib.Data.List.Induction

/-!
# `Rust.Bytes` — integers and text in byte buffers

Buffers are lists of bytes. Integers are read as the language reads them after a byte-order conversion; text is
decoded as `String::from_utf8_lossy` decodes it, one replacement character for each maximal prefix of a
sequence that does not go on.
-/

namespace TradingPlatform
namespace Rust

/-! ## Integers -/

/-- `u64::from_be` and its siblings: the number big-endian bytes spell. -/
def ofBe (bytes : List UInt8) : Nat := bytes.foldl (fun n b => 256 * n + b.toNat) 0

/-- The low `n` bytes of a number, most significant first. -/
def toBe : Nat → Nat → List UInt8
  | 0, _         => []
  | n + 1, value => toBe n (value / 256) ++ [UInt8.ofNat (value % 256)]

/-- The low `n` bytes of a number, least significant first: how a little-endian machine stores it. -/
def toLe : Nat → Nat → List UInt8
  | 0, _         => []
  | n + 1, value => UInt8.ofNat (value % 256) :: toLe n (value / 256)

/-- `u64::from_le_bytes` and its siblings: the number little-endian bytes spell. -/
def ofLe (bytes : List UInt8) : Nat := ofBe bytes.reverse

/-- `x.to_be()` of a `u64` on a little-endian machine. -/
def u64ToBe (x : Nat) : Nat := ofBe (toLe 8 x)

/-- The `i64` with these 64 bits. -/
def u64AsI64 (n : Nat) : Int := if n < 2 ^ 63 then n else (n : Int) - 2 ^ 64

@[simp] theorem length_toBe (n value : Nat) : (toBe n value).length = n := by
  induction n generalizing value with
  | zero => rfl
  | succ n ih =>
      unfold toBe
      rw [List.length_append, ih, List.length_singleton]

theorem ofBe_append (bytes : List UInt8) (b : UInt8) : ofBe (bytes ++ [b]) = 256 * ofBe bytes + b.toNat := by
  unfold ofBe
  rw [List.foldl_append]
  rfl

theorem ofBe_lt (bytes : List UInt8) : ofBe bytes < 256 ^ bytes.length := by
  induction bytes using List.reverseRecOn with
  | nil => exact Nat.one_pos
  | append_singleton bytes b ih =>
      have hb : b.toNat < 256 := UInt8.toNat_lt b
      rw [ofBe_append, List.length_append, List.length_singleton, Nat.pow_succ]
      omega

theorem toNat_ofNat_mod (value : Nat) : (UInt8.ofNat (value % 256)).toNat = value % 256 := by
  rw [UInt8.toNat_ofNat']
  exact Nat.mod_mod ..

/-- **What big-endian bytes spell** is the number they were written from. -/
theorem ofBe_toBe {n value : Nat} (h : value < 256 ^ n) : ofBe (toBe n value) = value := by
  induction n generalizing value with
  | zero =>
      obtain rfl : value = 0 := Nat.lt_one_iff.mp h
      rfl
  | succ n ih =>
      have hhigh : value / 256 < 256 ^ n := by
        rw [Nat.pow_succ] at h
        exact Nat.div_lt_of_lt_mul (Nat.mul_comm _ _ ▸ h)
      unfold toBe
      rw [ofBe_append, ih hhigh, toNat_ofNat_mod]
      exact Nat.div_add_mod value 256

/-- The two byte orders mirror each other. -/
theorem reverse_toLe (n value : Nat) : (toLe n value).reverse = toBe n value := by
  induction n generalizing value with
  | zero => rfl
  | succ n ih =>
      unfold toLe toBe
      rw [List.reverse_cons, ih]

theorem length_toLe (n value : Nat) : (toLe n value).length = n := by
  rw [← List.length_reverse, reverse_toLe, length_toBe]

/-- What little-endian bytes spell is the number they were written from, too. -/
theorem ofLe_toLe {n value : Nat} (h : value < 256 ^ n) : ofLe (toLe n value) = value := by
  unfold ofLe
  rw [reverse_toLe, ofBe_toBe h]

theorem ofLe_lt (bytes : List UInt8) : ofLe bytes < 256 ^ bytes.length := by
  have hlt := ofBe_lt bytes.reverse
  rwa [List.length_reverse] at hlt

/-- Storing what the bytes spell mirrors them. -/
theorem toLe_ofBe (bytes : List UInt8) : toLe bytes.length (ofBe bytes) = bytes.reverse := by
  induction bytes using List.reverseRecOn with
  | nil => rfl
  | append_singleton bytes b ih =>
      have hb : b.toNat < 256 := UInt8.toNat_lt b
      have hlow : (256 * ofBe bytes + b.toNat) % 256 = b.toNat := by omega
      have hhigh : (256 * ofBe bytes + b.toNat) / 256 = ofBe bytes := by omega
      rw [List.length_append, List.length_singleton, ofBe_append, List.reverse_append]
      unfold toLe
      rw [hlow, hhigh, ih, UInt8.ofNat_toNat]
      rfl

/-- **A converted number lies in memory big-endian.** -/
theorem toLe_u64ToBe (x : Nat) : toLe 8 (u64ToBe x) = toBe 8 x := by
  have hstore := toLe_ofBe (toLe 8 x)
  rw [length_toLe, reverse_toLe] at hstore
  exact hstore

/-! ## Text -/

/-- A continuation byte `10xxxxxx`. -/
def isContinuation (b : UInt8) : Bool := 0x80 ≤ b && b ≤ 0xBF

/-- The second bytes a three-byte sequence may have: no overlong forms, no surrogates. -/
def secondOfThree (first second : UInt8) : Bool :=
  if first = 0xE0 then 0xA0 ≤ second && second ≤ 0xBF
  else if first = 0xED then 0x80 ≤ second && second ≤ 0x9F
  else isContinuation second

/-- The second bytes a four-byte sequence may have: no overlong forms, nothing past `U+10FFFF`. -/
def secondOfFour (first second : UInt8) : Bool :=
  if first = 0xF0 then 0x90 ≤ second && second ≤ 0xBF
  else if first = 0xF4 then 0x80 ≤ second && second ≤ 0x8F
  else isContinuation second

/-- The payload bits of the bytes after the first, six each. -/
def appendBits (high : Nat) (bytes : List UInt8) : Nat := bytes.foldl (fun n b => 64 * n + b.toNat % 64) high

/-- The sequence that starts with `first`: its character, none if it is cut short or not a sequence at all, and
    the number of bytes of `rest` it takes. -/
def decodeSequence (first : UInt8) (rest : List UInt8) : Option Char × Nat :=
  let char (high n : Nat) : Char := Char.ofNat (appendBits high (rest.take n))
  if first < 0x80 then (some (char first.toNat 0), 0)
  else if 0xC2 ≤ first && first ≤ 0xDF then
    if rest[0]?.any isContinuation then (some (char (first.toNat % 32) 1), 1) else (none, 0)
  else if 0xE0 ≤ first && first ≤ 0xEF then
    if !rest[0]?.any (secondOfThree first) then (none, 0)
    else if !rest[1]?.any isContinuation then (none, 1)
    else (some (char (first.toNat % 16) 2), 2)
  else if 0xF0 ≤ first && first ≤ 0xF4 then
    if !rest[0]?.any (secondOfFour first) then (none, 0)
    else if !rest[1]?.any isContinuation then (none, 1)
    else if !rest[2]?.any isContinuation then (none, 2)
    else (some (char (first.toNat % 8) 3), 3)
  else (none, 0)

/-- The characters of a buffer of at most `n` bytes. -/
def lossyChars : Nat → List UInt8 → List Char
  | 0, _                 => []
  | _, []                => []
  | n + 1, first :: rest =>
    let (char, taken) := decodeSequence first rest
    char.getD '\uFFFD' :: lossyChars n (rest.drop taken)

/-- `String::from_utf8_lossy`. Every sequence takes a byte, so the length of the buffer is enough. -/
def fromUtf8Lossy (bytes : List UInt8) : String := String.ofList (lossyChars bytes.length bytes)

/-- ASCII, two, three and four bytes, then a sequence cut short by an `A`. -/
example : fromUtf8Lossy [0x42, 0xC3, 0xA9, 0xE2, 0x82, 0xAC, 0xF0, 0x9F, 0x98, 0x80, 0xE2, 0x82, 0x41]
    = "Bé€😀\uFFFDA" := by decide +kernel

end Rust
end TradingPlatform
