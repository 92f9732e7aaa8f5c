import TradingPlatform.Library.Delimited
import TradingPlatform.Market.OrderBook
import TradingPlatform.Rust.Fixed

/-!
# `Engine.Checksum` — the texts whose hashes validate a book

Both exchanges hash a text of the levels. The numbers are printed without the zeros at their end and read back as what
they were (`formatNumber_reads`), so the text of Bybit determines the book, and that of OKX the first levels once it
is known how many there are of each side (`checksum_text_determines`). Without that it does not: the levels of a book
with one side have the same text on the other (`okxText_one_sided`).
-/

namespace TradingPlatform
namespace Engine

open Market Rust Delimited

/-- Remove unnecessary decimals. -/
def formatNumber (x : ℚ) : List Char :=
  if fract x = 0 then formatFixed 0 x else trimEndMatches '.' (trimEndMatches '0' (formatFixed 8 x))

def formatPrice (price : ℚ) : List Char := formatNumber price

def formatQuantity (quantity : ℚ) : List Char := formatNumber quantity

/-- Price, quantity and what stands behind them. -/
def levelText (mark : Char) (level : PriceLevel) : List Char :=
  formatPrice level.price ++ ':' :: formatQuantity level.quantity ++ [mark]

/-- The text that `calculate_bybit_checksum` hashes. -/
def bybitText (book : OrderBook) : String :=
  String.ofList (book.bids.flatMap (levelText '|') ++ "||".toList ++ book.asks.flatMap (levelText '|'))

/-- The top levels of each side. -/
def maxLevels : Nat := 25

/-- A level of a side, if it is among the first `count`. -/
def okxLevel (levels : List PriceLevel) (count i : Nat) : List Char :=
  if i < count then (levels[i]?.map (levelText ':')).getD [] else []

/-- The text that `calculate_okx_checksum` hashes: the trailing colon is removed. -/
def okxText (book : OrderBook) : String :=
  let bidCount := min book.bids.length maxLevels
  let askCount := min book.asks.length maxLevels
  let checksumStr := (List.range (max bidCount askCount)).flatMap fun i =>
    okxLevel book.bids bidCount i ++ okxLevel book.asks askCount i
  String.ofList (if checksumStr.getLast? = some ':' then checksumStr.dropLast else checksumStr)

/-- The hash functions, from a text to hexadecimal digits. -/
structure Hashes where
  crc32 : String → String
  md5   : String → String

variable (hashes : Hashes)

def calculateOkxChecksum (book : OrderBook) : String := hashes.crc32 (okxText book)

def calculateBybitChecksum (book : OrderBook) : String := hashes.md5 (bybitText book)

/-- `None`: the others have no checksum. -/
def calculateChecksum (book : OrderBook) : Exchange → Option String
  | .okx   => some (calculateOkxChecksum hashes book)
  | .bybit => some (calculateBybitChecksum hashes book)
  | _      => none

def validateChecksum (book : OrderBook) (exchange : Exchange) (expectedChecksum : String) : Except String Unit :=
  match exchange with
  | .okx   =>
    let calculated := calculateOkxChecksum hashes book
    if calculated ≠ expectedChecksum then
      .error ("OKX checksum mismatch: expected " ++ expectedChecksum ++ ", got " ++ calculated)
    else .ok ()
  | .bybit =>
    let calculated := calculateBybitChecksum hashes book
    if calculated ≠ expectedChecksum then
      .error ("Bybit checksum mismatch: expected " ++ expectedChecksum ++ ", got " ++ calculated)
    else .ok ()
  | _      => .ok ()

/-- A book is valid against every checksum that is calculated from one with its text. -/
theorem validateChecksum_calculated {book book' : OrderBook} {exchange : Exchange} {checksum : String}
    (hbybit : bybitText book = bybitText book') (hokx : okxText book = okxText book')
    (h : calculateChecksum hashes book' exchange = some checksum) :
    validateChecksum hashes book exchange checksum = .ok () := by
  unfold calculateChecksum calculateOkxChecksum calculateBybitChecksum at h
  unfold validateChecksum calculateOkxChecksum calculateBybitChecksum
  rw [hbybit, hokx]
  split at h
  · exact if_neg (not_not.mpr (Option.some.inj h))
  · exact if_neg (not_not.mpr (Option.some.inj h))
  · cases h

/-! ## Numbers -/

/-- A non-negative multiple of `10⁻⁸`. -/
def EightDecimals (x : ℚ) : Prop := ∃ n : Nat, x = n / 10 ^ 8

/-- All numbers of the levels are. -/
def Printable (levels : List PriceLevel) : Prop :=
  ∀ level ∈ levels, EightDecimals level.price ∧ EightDecimals level.quantity

/-- What is printed: digits, and digits behind a point, that denote the number. -/
theorem exists_formatNumber {x : ℚ} (h : EightDecimals x) :
    ∃ whole fraction, whole ≠ [] ∧ formatNumber x = digitsText whole ++ Numeral.fractionText fraction ∧
      pointed whole (fraction.getD []) = x := by
  obtain ⟨n, rfl⟩ := h
  unfold formatNumber
  by_cases hwhole : n % 10 ^ 8 = 0
  · -- a whole number is printed without a point
    have hfract : fract ((n : ℚ) / 10 ^ 8) = 0 := by rw [fract_multiple, hwhole, Nat.cast_zero, zero_div]
    obtain ⟨k, rfl⟩ := Nat.dvd_of_mod_eq_zero hwhole
    have hx : ((10 ^ 8 * k : Nat) : ℚ) / 10 ^ 8 = k := by
      rw [Nat.cast_mul, Nat.cast_pow]
      exact mul_div_cancel_left₀ _ (by norm_num)
    obtain ⟨whole, hne, htext, hvalue⟩ := exists_digits k
    refine ⟨whole, none, hne, ?_, ?_⟩
    · rw [if_pos hfract, hx, formatFixed_natCast, htext, Numeral.fractionText, List.append_nil]
    · rw [hx, ← hvalue]
      simp [pointed]
  · -- otherwise the eight decimals are not all zero, so the point stays
    have hfract : fract ((n : ℚ) / 10 ^ 8) ≠ 0 := by
      rw [fract_multiple]
      exact div_ne_zero (Nat.cast_ne_zero.mpr hwhole) (by norm_num)
    obtain ⟨whole, decimals, hne, -, htext, hpointed, hvalue⟩ := exists_formatFixed (by decide : 0 < 8) n
    rw [← hvalue] at hwhole
    obtain ⟨decimals', htrimmed, hpointed'⟩ := trimmed_decimals whole hwhole
    refine ⟨whole, some decimals', hne, ?_, hpointed'.trans hpointed⟩
    rw [if_neg hfract, htext, htrimmed]
    rfl

/-- **A printed number reads back.** -/
theorem formatNumber_reads {x : ℚ} (h : EightDecimals x) : parseF64 (String.ofList (formatNumber x)) = some x := by
  obtain ⟨whole, fraction, hwhole, htext, hvalue⟩ := exists_formatNumber h
  rw [htext, parseF64_digits hwhole, hvalue]

theorem formatNumber_inj {x y : ℚ} (hx : EightDecimals x) (hy : EightDecimals y)
    (h : formatNumber x = formatNumber y) : x = y := by
  have hread := formatNumber_reads hx
  rw [h, formatNumber_reads hy] at hread
  exact (Option.some.inj hread).symm

/-- Only digits and a point are in it. -/
theorem notMem_formatNumber {x : ℚ} (h : EightDecimals x) {c : Char} (hdigit : c.isDigit = false) (hpoint : c ≠ '.') :
    c ∉ formatNumber x := by
  obtain ⟨whole, fraction, -, htext, -⟩ := exists_formatNumber h
  rw [htext, List.mem_append]
  rintro (hmem | hmem)
  · exact notMem_digitsText hdigit whole hmem
  · cases fraction with
    | none => cases hmem
    | some decimals =>
        rcases List.mem_cons.mp hmem with heq | hmem
        · exact hpoint heq
        · exact notMem_digitsText hdigit decimals hmem

/-! ## Levels -/

/-- A level up to its mark. -/
def levelField (level : PriceLevel) : List Char := formatPrice level.price ++ ':' :: formatQuantity level.quantity

/-- The two numbers of a level. -/
def levelFields (level : PriceLevel) : List (List Char) := [formatPrice level.price, formatQuantity level.quantity]

theorem levelText_okx (level : PriceLevel) : levelText ':' level = terminated ':' (levelFields level) := by
  rw [levelFields, terminated_cons, terminated_cons, terminated_nil, levelText, List.append_assoc]
  rfl

variable {level level' : PriceLevel} {levels levels' : List PriceLevel}

theorem level_inj (h : EightDecimals level.price ∧ EightDecimals level.quantity)
    (h' : EightDecimals level'.price ∧ EightDecimals level'.quantity)
    (hprice : formatPrice level.price = formatPrice level'.price)
    (hquantity : formatQuantity level.quantity = formatQuantity level'.quantity) : level = level' := by
  obtain ⟨price, quantity⟩ := level
  obtain ⟨price', quantity'⟩ := level'
  obtain rfl : price = price' := formatNumber_inj h.1 h'.1 hprice
  obtain rfl : quantity = quantity' := formatNumber_inj h.2 h'.2 hquantity
  rfl

theorem levelField_inj (h : EightDecimals level.price ∧ EightDecimals level.quantity)
    (h' : EightDecimals level'.price ∧ EightDecimals level'.quantity) (heq : levelField level = levelField level') :
    level = level' := by
  obtain ⟨hprice, hquantity⟩ := append_sep_inj (notMem_formatNumber h.1 (by decide) (by decide))
    (notMem_formatNumber h'.1 (by decide) (by decide)) heq
  exact level_inj h h' hprice hquantity

theorem map_levelField_inj (h : Printable levels) (h' : Printable levels')
    (heq : levels.map levelField = levels'.map levelField) : levels = levels' := by
  induction levels generalizing levels' with
  | nil => exact (List.map_eq_nil_iff.mp heq.symm).symm
  | cons level levels ih =>
      cases levels' with
      | nil => cases heq
      | cons level' levels' =>
          obtain ⟨hhead, htail⟩ := List.cons.inj heq
          obtain ⟨hlevel, hlevels⟩ := List.forall_mem_cons.mp h
          obtain ⟨hlevel', hlevels'⟩ := List.forall_mem_cons.mp h'
          rw [levelField_inj hlevel hlevel' hhead, ih hlevels hlevels' htail]

theorem flatMap_levelFields_inj (h : Printable levels) (h' : Printable levels')
    (heq : levels.flatMap levelFields = levels'.flatMap levelFields) : levels = levels' := by
  induction levels generalizing levels' with
  | nil =>
      cases levels' with
      | nil => rfl
      | cons level' levels' => cases heq
  | cons level levels ih =>
      cases levels' with
      | nil => cases heq
      | cons level' levels' =>
          obtain ⟨hprice, hrest⟩ := List.cons.inj heq
          obtain ⟨hquantity, htail⟩ := List.cons.inj hrest
          obtain ⟨hlevel, hlevels⟩ := List.forall_mem_cons.mp h
          obtain ⟨hlevel', hlevels'⟩ := List.forall_mem_cons.mp h'
          rw [level_inj hlevel hlevel' hprice hquantity, ih hlevels hlevels' htail]

/-! ## The texts -/

/-- **The text of Bybit** is the levels of both sides with two empty fields between them, a bar behind each. -/
theorem bybitText_eq (book : OrderBook) :
    bybitText book =
      String.ofList (terminated '|' (book.bids.map levelField ++ [] :: [] :: book.asks.map levelField)) := by
  have hside (levels : List PriceLevel) :
      levels.flatMap (levelText '|') = terminated '|' (levels.map levelField) := by
    rw [terminated, List.flatMap_map]
    rfl
  rw [bybitText, hside, hside, terminated_append, terminated_cons, terminated_cons, List.append_assoc]
  rfl

theorem bar_notMem {book : OrderBook} (h : Printable book.bids ∧ Printable book.asks) :
    ∀ field ∈ book.bids.map levelField ++ [] :: [] :: book.asks.map levelField, '|' ∉ field := by
  have hlevel (levels : List PriceLevel) (h : Printable levels) : ∀ field ∈ levels.map levelField, '|' ∉ field := by
    rintro field hfield hbar
    obtain ⟨level, hlevel, rfl⟩ := List.mem_map.mp hfield
    obtain ⟨hprice, hquantity⟩ := h level hlevel
    rcases List.mem_append.mp hbar with hbar | hbar
    · exact notMem_formatNumber hprice (by decide) (by decide) hbar
    · exact notMem_formatNumber hquantity (by decide) (by decide) ((List.mem_cons.mp hbar).resolve_left (by decide))
  intro field hfield
  rcases List.mem_append.mp hfield with hfield | hfield
  · exact hlevel book.bids h.1 field hfield
  · rcases List.mem_cons.mp hfield with rfl | hfield
    · exact List.not_mem_nil
    · rcases List.mem_cons.mp hfield with rfl | hfield
      · exact List.not_mem_nil
      · exact hlevel book.asks h.2 field hfield

theorem empty_notMem (levels : List PriceLevel) : [] ∉ levels.map levelField := by
  intro hmem
  obtain ⟨level, -, hnil⟩ := List.mem_map.mp hmem
  exact List.append_ne_nil_of_right_ne_nil _ (List.cons_ne_nil _ _) hnil

/-- The first empty field ends the bids. -/
theorem bybitText_inj {book book' : OrderBook} (h : Printable book.bids ∧ Printable book.asks)
    (h' : Printable book'.bids ∧ Printable book'.asks) :
    bybitText book = bybitText book' ↔ book.bids = book'.bids ∧ book.asks = book'.asks := by
  refine ⟨fun heq => ?_, fun ⟨hbids, hasks⟩ => by rw [bybitText, bybitText, hbids, hasks]⟩
  -- the bars cut the text into fields, and the first empty one cuts these into the sides
  rw [bybitText_eq, bybitText_eq, String.ofList_inj, terminated_inj (bar_notMem h) (bar_notMem h')] at heq
  obtain ⟨hbids, hrest⟩ := append_sep_inj (empty_notMem book.bids) (empty_notMem book'.bids) heq
  exact ⟨map_levelField_inj h.1 h'.1 hbids, map_levelField_inj h.2 h'.2 (List.cons.inj hrest).2⟩

theorem okxLevel_eq (levels : List PriceLevel) (i : Nat) :
    okxLevel levels (min levels.length maxLevels) i = ((levels.take maxLevels)[i]?.map (levelText ':')).getD [] := by
  unfold okxLevel
  by_cases hi : i < min levels.length maxLevels
  · rw [if_pos hi, List.getElem?_take_of_lt (lt_min_iff.mp hi).2]
  · rw [if_neg hi, List.getElem?_eq_none (by rw [List.length_take, min_comm]; exact not_lt.mp hi)]
    rfl

/-- **The text of OKX** is the numbers of the first levels, both sides in turn, a colon between any two. -/
theorem okxText_eq (book : OrderBook) :
    okxText book = String.ofList (terminated ':'
      ((interleave (book.bids.take maxLevels) (book.asks.take maxLevels)).flatMap levelFields)).dropLast := by
  have hloop : ((List.range (max (min book.bids.length maxLevels) (min book.asks.length maxLevels))).flatMap fun i =>
      okxLevel book.bids (min book.bids.length maxLevels) i ++
        okxLevel book.asks (min book.asks.length maxLevels) i) =
      terminated ':'
        ((interleave (book.bids.take maxLevels) (book.asks.take maxLevels)).flatMap levelFields) := by
    simp only [okxLevel_eq]
    rw [terminated_flatMap, min_comm _ maxLevels, min_comm _ maxLevels, ← List.length_take, ← List.length_take,
      flatMap_range_max]
    exact List.flatMap_congr fun level _ => levelText_okx level
  unfold okxText
  dsimp only
  rw [hloop]
  by_cases hnil : (interleave (book.bids.take maxLevels) (book.asks.take maxLevels)).flatMap levelFields = []
  · rw [hnil]
    rfl
  · rw [if_pos (getLast?_terminated hnil)]

theorem colon_notMem (h : Printable levels) : ∀ field ∈ levels.flatMap levelFields, ':' ∉ field := by
  intro field hfield
  obtain ⟨level, hlevel, hmem⟩ := List.mem_flatMap.mp hfield
  obtain ⟨hprice, hquantity⟩ := h level hlevel
  rcases List.mem_cons.mp hmem with rfl | hmem
  · exact notMem_formatNumber hprice (by decide) (by decide)
  · rw [List.mem_singleton.mp hmem]
    exact notMem_formatNumber hquantity (by decide) (by decide)

theorem length_flatMap_levelFields (levels : List PriceLevel) :
    (levels.flatMap levelFields).length = 2 * levels.length := by
  induction levels with
  | nil => rfl
  | cons level levels ih =>
      rw [List.flatMap_cons, List.length_append, ih, List.length_cons]
      exact (Nat.add_comm _ _).trans (Nat.mul_succ 2 _).symm

theorem okxText_inj {book book' : OrderBook} (h : Printable book.bids ∧ Printable book.asks)
    (h' : Printable book'.bids ∧ Printable book'.asks)
    (hbids : min maxLevels book.bids.length = min maxLevels book'.bids.length)
    (hasks : min maxLevels book.asks.length = min maxLevels book'.asks.length) :
    okxText book = okxText book' ↔
      book.bids.take maxLevels = book'.bids.take maxLevels ∧
      book.asks.take maxLevels = book'.asks.take maxLevels := by
  rw [← List.length_take, ← List.length_take] at hbids hasks
  have hprintable (book : OrderBook) (h : Printable book.bids ∧ Printable book.asks) :
      Printable (interleave (book.bids.take maxLevels) (book.asks.take maxLevels)) := by
    intro level hlevel
    rcases mem_interleave.mp hlevel with hlevel | hlevel
    · exact h.1 level (List.mem_of_mem_take hlevel)
    · exact h.2 level (List.mem_of_mem_take hlevel)
  have hlength : ((interleave (book.bids.take maxLevels) (book.asks.take maxLevels)).flatMap levelFields).length =
      ((interleave (book'.bids.take maxLevels) (book'.asks.take maxLevels)).flatMap levelFields).length := by
    rw [length_flatMap_levelFields, length_flatMap_levelFields, length_interleave, length_interleave, hbids, hasks]
  rw [okxText_eq, okxText_eq, String.ofList_inj, dropLast_terminated_inj hlength (colon_notMem (hprintable book h))
    (colon_notMem (hprintable book' h')), ← interleave_inj hbids hasks]
  exact ⟨flatMap_levelFields_inj (hprintable book h) (hprintable book' h'), fun heq => by rw [heq]⟩

/-- Nothing in the text says which side a level is of. -/
theorem okxText_one_sided {book book' : OrderBook} (hasks : book.asks = []) (hbids : book'.bids = [])
    (h : book.bids = book'.asks) : okxText book = okxText book' := by
  rw [okxText_eq, okxText_eq, hasks, hbids, h, List.take_nil, interleave_nil_right, interleave]

/-- **The text determines the book**: all of it for Bybit, the first levels for OKX if there are equally many of them
on each side. -/
theorem checksum_text_determines (book book' : OrderBook) (h : Printable book.bids ∧ Printable book.asks)
    (h' : Printable book'.bids ∧ Printable book'.asks) :
    (bybitText book = bybitText book' ↔ book.bids = book'.bids ∧ book.asks = book'.asks) ∧
    (min maxLevels book.bids.length = min maxLevels book'.bids.length →
      min maxLevels book.asks.length = min maxLevels book'.asks.length →
      (okxText book = okxText book' ↔
        book.bids.take maxLevels = book'.bids.take maxLevels ∧
        book.asks.take maxLevels = book'.asks.take maxLevels)) :=
  ⟨bybitText_inj h h', okxText_inj h h'⟩

/-- A book with one level on each side. -/
def narrowBook (bidQuantity : ℚ) : OrderBook :=
  { OrderBook.new "BTCUSDT" .okx with bids := [⟨201 / 2, bidQuantity⟩], asks := [⟨101, 15⟩] }

theorem printable_narrowBook (n : Nat) :
    Printable (narrowBook (n / 10 ^ 8)).bids ∧ Printable (narrowBook (n / 10 ^ 8)).asks := by
  constructor
  · intro level hlevel
    rw [List.mem_singleton.mp hlevel]
    exact ⟨⟨10050000000, by norm_num⟩, ⟨n, rfl⟩⟩
  · intro level hlevel
    rw [List.mem_singleton.mp hlevel]
    exact ⟨⟨10100000000, by norm_num⟩, ⟨1500000000, by norm_num⟩⟩

example : okxText (narrowBook (1025 / 10 ^ 8)) = "100.5:0.00001025:101:15" := by decide +kernel

/-- A quantity that is off by the last decimal changes both texts. -/
theorem checksum_text_determines_narrow :
    bybitText (narrowBook ((1025 : Nat) / 10 ^ 8)) ≠ bybitText (narrowBook ((1026 : Nat) / 10 ^ 8)) ∧
    okxText (narrowBook ((1025 : Nat) / 10 ^ 8)) ≠ okxText (narrowBook ((1026 : Nat) / 10 ^ 8)) := by
  have h := checksum_text_determines _ _ (printable_narrowBook 1025) (printable_narrowBook 1026)
  refine ⟨fun heq => ?_, fun heq => ?_⟩
  · exact absurd (h.1.mp heq).1 (by decide +kernel)
  · exact absurd ((h.2 rfl rfl).mp heq).1 (by decide +kernel)

end Engine
end TradingPlatform
