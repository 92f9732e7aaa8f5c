import TradingPlatform.Rust.Bytes

/-!
# `Rust.Utf8` — text as bytes and back

`fromUtf8Lossy` undoes `utf8Bytes`: a character's encoding is a sequence that `decodeSequence` takes whole
(`decodeSequence_encode`), whatever follows it.
-/

namespace TradingPlatform
namespace Rust

/-- `s.as_bytes()`. -/
def utf8Bytes (s : String) : List UInt8 := s.toList.flatMap String.utf8EncodeChar

theorem utf8Bytes_append (s t : String) : utf8Bytes (s ++ t) = utf8Bytes s ++ utf8Bytes t := by
  rw [utf8Bytes, String.toList_append, List.flatMap_append]
  rfl

/-- An ASCII character is its own byte. -/
theorem utf8EncodeChar_ascii {c : Char} (h : c.toNat ≤ 0x7f) : String.utf8EncodeChar c = [UInt8.ofNat c.toNat] := by
  unfold String.utf8EncodeChar
  exact if_pos h

/-! ## One character

The bytes of a character by their values; which of the four forms it takes depends on the number alone. -/

theorem decodeSequence_one {v : Nat} (h : v ≤ 0x7f) (rest : List UInt8) :
    decodeSequence (UInt8.ofNat v) rest = (some (Char.ofNat v), 0) := by
  have hv : (UInt8.ofNat v).toNat = v := by
    rw [UInt8.toNat_ofNat']
    omega
  have hascii : UInt8.ofNat v < 0x80 := by
    rw [UInt8.lt_iff_toNat_lt, hv]
    exact Nat.lt_succ_of_le h
  unfold decodeSequence
  simp [hascii, appendBits, hv]

theorem decodeSequence_two {v : Nat} (h : 0x7f < v) (h' : v ≤ 0x7ff) (rest : List UInt8) :
    decodeSequence (UInt8.ofNat (v / 64 % 0x20 + 0xc0)) (UInt8.ofNat (v % 0x40 + 0x80) :: rest)
      = (some (Char.ofNat v), 1) := by
  have ha : (UInt8.ofNat (v / 64 % 0x20 + 0xc0)).toNat = v / 64 + 0xc0 := by
    rw [UInt8.toNat_ofNat']
    omega
  have hb : (UInt8.ofNat (v % 0x40 + 0x80)).toNat = v % 0x40 + 0x80 := by
    rw [UInt8.toNat_ofNat']
    omega
  generalize UInt8.ofNat (v / 64 % 0x20 + 0xc0) = a at *
  generalize UInt8.ofNat (v % 0x40 + 0x80) = b at *
  have hascii : ¬ a < 0x80 := by simp [UInt8.lt_iff_toNat_lt]; omega
  have hlead : (0xC2 ≤ a && a ≤ 0xDF) = true := by simp [UInt8.le_iff_toNat_le]; omega
  have htail : isContinuation b = true := by simp [isContinuation, UInt8.le_iff_toNat_le]; omega
  unfold decodeSequence
  simp [hascii, hlead, htail, appendBits, ha, hb]
  congr 1
  omega

/-- Surrogates are not characters, so the second byte is one the first allows. -/
theorem decodeSequence_three {v : Nat} (h : 0x7ff < v) (h' : v ≤ 0xffff) (hs : v < 0xd800 ∨ 0xdfff < v)
    (rest : List UInt8) :
    decodeSequence (UInt8.ofNat (v / 4096 % 0x10 + 0xe0))
        (UInt8.ofNat (v / 64 % 0x40 + 0x80) :: UInt8.ofNat (v % 0x40 + 0x80) :: rest)
      = (some (Char.ofNat v), 2) := by
  have ha : (UInt8.ofNat (v / 4096 % 0x10 + 0xe0)).toNat = v / 4096 + 0xe0 := by
    rw [UInt8.toNat_ofNat']
    omega
  have hb : (UInt8.ofNat (v / 64 % 0x40 + 0x80)).toNat = v / 64 % 0x40 + 0x80 := by
    rw [UInt8.toNat_ofNat']
    omega
  have hc : (UInt8.ofNat (v % 0x40 + 0x80)).toNat = v % 0x40 + 0x80 := by
    rw [UInt8.toNat_ofNat']
    omega
  generalize UInt8.ofNat (v / 4096 % 0x10 + 0xe0) = a at *
  generalize UInt8.ofNat (v / 64 % 0x40 + 0x80) = b at *
  generalize UInt8.ofNat (v % 0x40 + 0x80) = c at *
  have hascii : ¬ a < 0x80 := by simp [UInt8.lt_iff_toNat_lt]; omega
  have htwo : (0xC2 ≤ a && a ≤ 0xDF) = false := by simp [UInt8.le_iff_toNat_le]; omega
  have hlead : (0xE0 ≤ a && a ≤ 0xEF) = true := by simp [UInt8.le_iff_toNat_le]; omega
  have hsecond : secondOfThree a b = true := by
    unfold secondOfThree isContinuation
    split
    next he => simp [UInt8.le_iff_toNat_le, he] at ha ⊢; omega
    next =>
      split
      next he => simp [UInt8.le_iff_toNat_le, he] at ha ⊢; omega
      next => simp [UInt8.le_iff_toNat_le]; omega
  have htail : isContinuation c = true := by simp [isContinuation, UInt8.le_iff_toNat_le]; omega
  unfold decodeSequence
  simp [hascii, htwo, hlead, hsecond, htail, appendBits, ha, hb, hc]
  congr 1
  omega

theorem decodeSequence_four {v : Nat} (h : 0xffff < v) (h' : v < 0x110000) (rest : List UInt8) :
    decodeSequence (UInt8.ofNat (v / 262144 % 0x08 + 0xf0))
        (UInt8.ofNat (v / 4096 % 0x40 + 0x80) :: UInt8.ofNat (v / 64 % 0x40 + 0x80) ::
          UInt8.ofNat (v % 0x40 + 0x80) :: rest)
      = (some (Char.ofNat v), 3) := by
  have ha : (UInt8.ofNat (v / 262144 % 0x08 + 0xf0)).toNat = v / 262144 + 0xf0 := by
    rw [UInt8.toNat_ofNat']
    omega
  have hb : (UInt8.ofNat (v / 4096 % 0x40 + 0x80)).toNat = v / 4096 % 0x40 + 0x80 := by
    rw [UInt8.toNat_ofNat']
    omega
  have hc : (UInt8.ofNat (v / 64 % 0x40 + 0x80)).toNat = v / 64 % 0x40 + 0x80 := by
    rw [UInt8.toNat_ofNat']
    omega
  have hd : (UInt8.ofNat (v % 0x40 + 0x80)).toNat = v % 0x40 + 0x80 := by
    rw [UInt8.toNat_ofNat']
    omega
  generalize UInt8.ofNat (v / 262144 % 0x08 + 0xf0) = a at *
  generalize UInt8.ofNat (v / 4096 % 0x40 + 0x80) = b at *
  generalize UInt8.ofNat (v / 64 % 0x40 + 0x80) = c at *
  generalize UInt8.ofNat (v % 0x40 + 0x80) = d at *
  have hascii : ¬ a < 0x80 := by simp [UInt8.lt_iff_toNat_lt]; omega
  have htwo : (0xC2 ≤ a && a ≤ 0xDF) = false := by simp [UInt8.le_iff_toNat_le]; omega
  have hthree : (0xE0 ≤ a && a ≤ 0xEF) = false := by simp [UInt8.le_iff_toNat_le]; omega
  have hlead : (0xF0 ≤ a && a ≤ 0xF4) = true := by simp [UInt8.le_iff_toNat_le]; omega
  have hsecond : secondOfFour a b = true := by
    unfold secondOfFour isContinuation
    split
    next he => simp [UInt8.le_iff_toNat_le, he] at ha ⊢; omega
    next =>
      split
      next he => simp [UInt8.le_iff_toNat_le, he] at ha ⊢; omega
      next => simp [UInt8.le_iff_toNat_le]; omega
  have hthird : isContinuation c = true := by simp [isContinuation, UInt8.le_iff_toNat_le]; omega
  have htail : isContinuation d = true := by simp [isContinuation, UInt8.le_iff_toNat_le]; omega
  unfold decodeSequence
  simp [hascii, htwo, hthree, hlead, hsecond, hthird, htail, appendBits, ha, hb, hc, hd]
  congr 1
  omega

/-- **A character is read back whole**, whatever follows it. -/
theorem decodeSequence_encode (c : Char) (rest : List UInt8) :
    ∃ first tail, String.utf8EncodeChar c = first :: tail ∧
      decodeSequence first (tail ++ rest) = (some c, tail.length) := by
  have hc : Char.ofNat c.val.toNat = c := Char.ofNat_toNat c
  have hvalid : c.val.toNat < 0xd800 ∨ 0xdfff < c.val.toNat ∧ c.val.toNat < 0x110000 := c.valid
  unfold String.utf8EncodeChar
  generalize c.val.toNat = v at *
  simp only []
  by_cases h₁ : v ≤ 0x7f
  · rw [if_pos h₁, ← hc]
    exact ⟨_, _, rfl, decodeSequence_one h₁ rest⟩
  by_cases h₂ : v ≤ 0x7ff
  · rw [if_neg h₁, if_pos h₂, ← hc]
    exact ⟨_, _, rfl, decodeSequence_two (by omega) h₂ rest⟩
  by_cases h₃ : v ≤ 0xffff
  · rw [if_neg h₁, if_neg h₂, if_pos h₃, ← hc]
    exact ⟨_, _, rfl, decodeSequence_three (by omega) h₃ (by omega) rest⟩
  · rw [if_neg h₁, if_neg h₂, if_neg h₃, ← hc]
    exact ⟨_, _, rfl, decodeSequence_four (by omega) (by omega) rest⟩

/-- Only the NUL character has a zero byte. -/
theorem zero_notMem_utf8EncodeChar {c : Char} (h : c ≠ '\x00') : (0 : UInt8) ∉ String.utf8EncodeChar c := by
  have hpos : 0 < c.val.toNat := by
    refine Nat.pos_of_ne_zero fun hzero => h ?_
    rw [← Char.ofNat_toNat c]
    show Char.ofNat c.val.toNat = '\x00'
    rw [hzero]
  have hbyte : ∀ n, 0 < n → n < 256 → (0 : UInt8) ≠ UInt8.ofNat n := by
    intro n hn hlt hzero
    have hnat := congrArg UInt8.toNat hzero
    rw [UInt8.toNat_ofNat'] at hnat
    have h0 : (0 : UInt8).toNat = 0 := rfl
    omega
  unfold String.utf8EncodeChar
  generalize c.val.toNat = v at *
  intro hmem
  dsimp only at hmem
  split at hmem
  · simp only [List.mem_singleton] at hmem
    exact hbyte _ hpos (by omega) hmem
  · split at hmem
    · simp only [List.mem_cons, List.not_mem_nil, or_false] at hmem
      rcases hmem with hmem | hmem <;> exact hbyte _ (by omega) (by omega) hmem
    · split at hmem
      · simp only [List.mem_cons, List.not_mem_nil, or_false] at hmem
        rcases hmem with hmem | hmem | hmem <;> exact hbyte _ (by omega) (by omega) hmem
      · simp only [List.mem_cons, List.not_mem_nil, or_false] at hmem
        rcases hmem with hmem | hmem | hmem | hmem <;> exact hbyte _ (by omega) (by omega) hmem

/-! ## Strict decoding -/

/-- The characters of a buffer of at most `n` bytes, none if a sequence is not one. -/
def utf8Chars : Nat → List UInt8 → Option (List Char)
  | _, []                => some []
  | 0, _                 => none
  | n + 1, first :: rest =>
    let (char, taken) := decodeSequence first rest
    char.bind fun c => (utf8Chars n (rest.drop taken)).map (c :: ·)

/-- `std::str::from_utf8` -/
def fromUtf8 (bytes : List UInt8) : Option String := (utf8Chars bytes.length bytes).map String.ofList

/-- Any bound that covers the bytes decodes all of them. -/
theorem utf8Chars_encode (cs : List Char) {n : Nat} (h : (cs.flatMap String.utf8EncodeChar).length ≤ n) :
    utf8Chars n (cs.flatMap String.utf8EncodeChar) = some cs := by
  induction cs generalizing n with
  | nil => cases n <;> rfl
  | cons c cs ih =>
      obtain ⟨first, tail, hencode, hdecode⟩ := decodeSequence_encode c (cs.flatMap String.utf8EncodeChar)
      rw [List.flatMap_cons, hencode] at h ⊢
      rw [List.cons_append, List.length_cons, List.length_append] at h
      cases n with
      | zero => omega
      | succ n =>
          have hrest : (tail ++ cs.flatMap String.utf8EncodeChar).drop tail.length
              = cs.flatMap String.utf8EncodeChar := List.drop_left ..
          rw [List.cons_append]
          unfold utf8Chars
          rw [hdecode]
          dsimp only [Option.bind_some]
          rw [hrest, ih (by omega), Option.map_some]

/-- **The bytes of a text are valid** and decode to it. -/
theorem fromUtf8_utf8Bytes (s : String) : fromUtf8 (utf8Bytes s) = some s := by
  unfold fromUtf8 utf8Bytes
  rw [utf8Chars_encode s.toList (Nat.le_refl _), Option.map_some, String.ofList_toList]

/-! ## Lossy decoding -/

theorem lossyChars_of_utf8Chars {n : Nat} {bytes : List UInt8} {cs : List Char} (h : utf8Chars n bytes = some cs) :
    lossyChars n bytes = cs := by
  induction n generalizing bytes cs with
  | zero =>
      cases bytes with
      | nil => exact Option.some.inj h
      | cons first rest => cases h
  | succ n ih =>
      cases bytes with
      | nil => exact Option.some.inj h
      | cons first rest =>
          unfold utf8Chars at h
          unfold lossyChars
          generalize decodeSequence first rest = decoded at h ⊢
          obtain ⟨c, hc, hrest⟩ := Option.bind_eq_some_iff.mp h
          obtain ⟨cs', hcs', rfl⟩ := Option.map_eq_some_iff.mp hrest
          dsimp only
          rw [hc, Option.getD_some, ih hcs']

/-- **Valid bytes** decode the same way. -/
theorem fromUtf8Lossy_of_fromUtf8 {bytes : List UInt8} {s : String} (h : fromUtf8 bytes = some s) :
    fromUtf8Lossy bytes = s := by
  obtain ⟨cs, hcs, rfl⟩ := Option.map_eq_some_iff.mp h
  exact congrArg String.ofList (lossyChars_of_utf8Chars hcs)

/-- **`from_utf8_lossy` loses nothing of a text.** -/
theorem fromUtf8Lossy_utf8Bytes (s : String) : fromUtf8Lossy (utf8Bytes s) = s :=
  fromUtf8Lossy_of_fromUtf8 (fromUtf8_utf8Bytes s)

/-! ## Zero bytes -/

/-- A text without a NUL character has no zero byte. -/
theorem zero_notMem_utf8Bytes {s : String} (h : '\x00' ∉ s.toList) : (0 : UInt8) ∉ utf8Bytes s := by
  intro hmem
  obtain ⟨c, hc, hbyte⟩ := List.mem_flatMap.mp hmem
  refine zero_notMem_utf8EncodeChar (fun hnul => h ?_) hbyte
  rw [← hnul]
  exact hc

end Rust
end TradingPlatform
