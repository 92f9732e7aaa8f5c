import TradingPlatform.Logger.Escape

/-!
# `Logger.Ilp` — the lines of the log writers, and how they are read

Three writers put texts between quotes into a line of the InfluxDB line protocol: `write_full_log`,
`write_connection_log_with_attempt` and `write_error_log`. A reader takes a backslash in a quoted field to escape the
next character. The writers escape quotes and newlines but not backslashes, and cut long texts at fixed byte offsets.

## Contents
- **Frames.** A line around one text: when it is read back as it was built.
- **The writers.** What they build, as the source has it, and the condition under which each line holds.
-/

namespace TradingPlatform
namespace Logger

open Rust Quoted

/-! ## Lines and how they are read -/

/-- A line of fields has no raw newline, and each field, read from where it opens, ends at the quote written for it. -/
def Intact (fields : List (List Char × List Char)) (closing : List Char) : Prop :=
  '\n' ∉ assemble '"' fields closing ∧
    readFields '"' '\\' (fields.map Prod.fst) (assemble '"' fields closing) = some (fields.map Prod.snd, closing)

theorem mem_assemble_iff {fields : List (List Char × List Char)} {closing : List Char} {c : Char} (hc : c ≠ '"') :
    c ∈ assemble '"' fields closing ↔ (∃ f ∈ fields, c ∈ f.1 ∨ c ∈ f.2) ∨ c ∈ closing := by
  induction fields with
  | nil => simp [assemble]
  | cons field fields ih =>
      obtain ⟨opening, value⟩ := field
      simp only [assemble, List.mem_append, List.mem_cons, ih, hc, false_or, exists_eq_or_imp, or_assoc]

theorem intact_iff {fields : List (List Char × List Char)} {closing : List Char} :
    Intact fields closing ↔
      (∀ f ∈ fields, '\n' ∉ f.1 ∧ '\n' ∉ f.2 ∧ Closed '"' '\\' f.2) ∧ '\n' ∉ closing := by
  unfold Intact
  rw [readFields_assemble_iff, mem_assemble_iff (by decide)]
  simp only [not_or, not_exists, not_and, List.forall_mem_map]
  constructor
  · rintro ⟨⟨hplain, hclosing⟩, hclosed⟩
    exact ⟨fun f hf => ⟨(hplain f hf).1, (hplain f hf).2, hclosed f hf⟩, hclosing⟩
  · rintro ⟨hfields, hclosing⟩
    exact ⟨⟨fun f hf => ⟨(hfields f hf).1, (hfields f hf).2.1⟩, hclosing⟩, fun f hf => (hfields f hf).2.2⟩

/-- The line around one text: the fields before it, its opening, and the closing, which carries the time. -/
structure Frame where
  prior   : List (List Char × List Char)
  opening : List Char
  closing : Int → List Char
  /-- nothing in the closing is taken for the end of a field or of the line -/
  plain   : ∀ now, '"' ∉ closing now ∧ '\n' ∉ closing now

namespace Frame

def fields (frame : Frame) (value : List Char) : List (List Char × List Char) := frame.prior ++ [(frame.opening, value)]

def line (frame : Frame) (value : List Char) (now : Int) : List Char :=
  assemble '"' (frame.fields value) (frame.closing now)

/-- The rest of the line is intact. -/
def Holds (frame : Frame) : Prop :=
  (∀ f ∈ frame.prior, '\n' ∉ f.1 ∧ '\n' ∉ f.2 ∧ Closed '"' '\\' f.2) ∧ '\n' ∉ frame.opening

/-- A writer built the line around some text, and it is intact. -/
def Sound (frame : Frame) (line : Option (List Char)) : Prop :=
  ∃ value now, line = some (frame.line value now) ∧ Intact (frame.fields value) (frame.closing now)

theorem assemble_append (fields fields' : List (List Char × List Char)) (closing : List Char) :
    assemble '"' (fields ++ fields') closing = assemble '"' fields (assemble '"' fields' closing) := by
  induction fields with
  | nil => rfl
  | cons field fields ih => simp only [List.cons_append, assemble, ih]

theorem assemble_injective (fields : List (List Char × List Char)) : Function.Injective (assemble '"' fields) := by
  induction fields with
  | nil => exact fun _ _ h => h
  | cons field fields ih =>
      intro closing closing' h
      simp only [assemble, List.append_cancel_left_eq, List.cons.injEq, true_and] at h
      exact ih h

/-- The text is what stands before the last quote. -/
theorem line_injective {frame : Frame} {value value' : List Char} {now now' : Int}
    (h : frame.line value now = frame.line value' now') : value = value' := by
  unfold line fields at h
  rw [assemble_append, assemble_append] at h
  have htail := List.append_cancel_left (assemble_injective frame.prior h)
  simp only [assemble] at htail
  rcases List.append_eq_append_iff.mp htail with ⟨middle, rfl, hquote⟩ | ⟨middle, rfl, hquote⟩
  · cases middle with
    | nil => exact (List.append_nil _).symm
    | cons c middle =>
        have hmem : '"' ∈ frame.closing now := by
          rw [(List.cons.inj hquote).2]
          simp
        exact absurd hmem (frame.plain now).1
  · cases middle with
    | nil => exact List.append_nil _
    | cons c middle =>
        have hmem : '"' ∈ frame.closing now' := by
          rw [(List.cons.inj hquote).2]
          simp
        exact absurd hmem (frame.plain now').1

theorem not_sound_none (frame : Frame) : ¬ frame.Sound none := by
  rintro ⟨value, now, h, -⟩
  cases h

theorem sound_some_iff (frame : Frame) (value : List Char) (now : Int) :
    frame.Sound (some (frame.line value now)) ↔ frame.Holds ∧ '\n' ∉ value ∧ Closed '"' '\\' value := by
  have hintact : Intact (frame.fields value) (frame.closing now) ↔
      frame.Holds ∧ '\n' ∉ value ∧ Closed '"' '\\' value := by
    rw [intact_iff, and_iff_left (frame.plain now).2]
    unfold fields Holds
    rw [List.forall_mem_append, List.forall_mem_singleton, and_assoc]
  rw [← hintact]
  constructor
  · rintro ⟨value', now', hline, hsound⟩
    obtain rfl := line_injective (Option.some.inj hline)
    rw [intact_iff, and_iff_left (frame.plain _).2] at hsound ⊢
    exact hsound
  · exact fun h => ⟨value, now, rfl, h⟩

/-- **A line around an escaped text** is sound exactly if its frame is and the text closes. -/
theorem sound_escaped_iff (frame : Frame) (text : List Char) (now : Int) :
    frame.Sound (some (frame.line (escapeText text) now)) ↔ frame.Holds ∧ QuotesSafe text ∧ ¬ OddEnd text := by
  rw [sound_some_iff, closed_escapeText_iff, and_iff_right (newline_notMem_escapeText text)]

/-- **A line around a cut text** is sound exactly if its frame is, the cut is between two characters and the quotes
    that are kept are safe. -/
theorem sound_cut_iff (frame : Frame) (text : List Char) (n : Nat) {mark : List Char} (hquote : '"' ∉ mark)
    (hslash : '\\' ∉ mark) (hnewline : '\n' ∉ mark) (hne : mark ≠ []) (now : Int) :
    frame.Sound ((sliceTo (escapeText text) n).map fun kept => frame.line (kept ++ mark) now) ↔
      frame.Holds ∧ CutAt text n ∧ QuotesSafeUpTo text n := by
  rw [← isCharBoundary_escapeText_iff]
  cases hslice : sliceTo (escapeText text) n with
  | none =>
      have hcut : ¬ IsCharBoundary (escapeText text) n := by
        rw [← isSome_sliceTo, hslice]
        simp
      simp [not_sound_none, hcut]
  | some kept =>
      obtain ⟨hbegins, rfl⟩ := sliceTo_eq_some_iff.mp hslice
      have hcut : IsCharBoundary (escapeText text) (byteLen kept) := isCharBoundary_iff.mpr ⟨kept, hbegins, rfl⟩
      have hplain : '\n' ∉ kept ++ mark := by
        rw [List.mem_append]
        rintro (hmem | hmem)
        · exact newline_notMem_escapeText text (hbegins.subset hmem)
        · exact hnewline hmem
      rw [Option.map_some, sound_some_iff, closed_prefix_append_iff hbegins hquote hslash hne, and_iff_right hplain,
        and_iff_right hcut]

end Frame

/-! ## The writers -/

/-- A number as it is formatted. -/
def decimal (n : Int) : List Char :=
  if n < 0 then '-' :: Nat.toDigits 10 n.natAbs else Nat.toDigits 10 n.natAbs

/-- `tag.replace(' ', "_").replace(',', "_")` -/
def tagValue (tag : List Char) : List Char := replaceChar ',' ['_'] (replaceChar ' ' ['_'] tag)

/-- `if escaped.len() > max { format!("{}...[TRUNCATED_{}chars]", &escaped[..keep], len) }` -/
def shorten (maxSize keep len : Nat) (escaped : List Char) : Option (List Char) :=
  if byteLen escaped > maxSize then (sliceTo escaped keep).map fun kept => kept ++ truncatedMark len
  else some escaped

theorem mem_decimal {n : Int} {c : Char} (h : c ∈ decimal n) : c = '-' ∨ c.isDigit = true := by
  have hdigits : ∀ c ∈ Nat.toDigits 10 n.natAbs, c.isDigit = true :=
    fun c hc => Nat.isDigit_of_mem_toDigits (by decide) (Nat.le_refl 10) hc
  unfold decimal at h
  split_ifs at h
  · exact (List.mem_cons.mp h).imp_right (hdigits c)
  · exact .inr (hdigits c h)

/-- The text after the last field: a space and the time stamp. -/
def timestamp (now : Int) : List Char := ' ' :: decimal now

theorem timestamp_plain (now : Int) : '"' ∉ timestamp now ∧ '\n' ∉ timestamp now := by
  constructor
  · intro h
    rcases List.mem_cons.mp h with h | h
    · exact absurd h (by decide)
    · rcases mem_decimal h with h | h <;> exact absurd h (by decide)
  · intro h
    rcases List.mem_cons.mp h with h | h
    · exact absurd h (by decide)
    · rcases mem_decimal h with h | h <;> exact absurd h (by decide)

theorem newline_mem_tagValue_iff {tag : List Char} : '\n' ∈ tagValue tag ↔ '\n' ∈ tag := by
  have hreplace : ∀ c ∈ [' ', ','], ∀ s, '\n' ∈ replaceChar c ['_'] s ↔ '\n' ∈ s := by
    intro c hc s
    unfold replaceChar
    rw [List.mem_flatMap]
    constructor
    · rintro ⟨d, hd, hmem⟩
      split_ifs at hmem
      · simp at hmem
      · rw [List.mem_singleton.mp hmem]
        exact hd
    · refine fun h => ⟨'\n', h, ?_⟩
      have hne : '\n' ≠ c := by
        rintro rfl
        simp at hc
      simp [hne]
  unfold tagValue
  rw [hreplace _ (by simp), hreplace _ (by simp)]

theorem mem_truncatedMark {n : Nat} {c : Char} (h : c ∈ truncatedMark n) :
    c ∈ "...[TRUNCATED_".toList ∨ c ∈ Nat.toDigits 10 n ∨ c ∈ "chars]".toList := by
  unfold truncatedMark at h
  rwa [List.append_assoc, List.mem_append, List.mem_append] at h

theorem utf8Size_of_mem_truncatedMark {n : Nat} {c : Char} (h : c ∈ truncatedMark n) : c.utf8Size = 1 := by
  have hliteral : ("...[TRUNCATED_".toList ++ "chars]".toList).all (fun c => c.utf8Size = 1) = true := by decide
  have hone : ∀ d ∈ "...[TRUNCATED_".toList ++ "chars]".toList, d.utf8Size = 1 :=
    fun d hd => of_decide_eq_true (List.all_eq_true.mp hliteral d hd)
  rcases mem_truncatedMark h with h | h | h
  · exact hone c (List.mem_append_left _ h)
  · exact utf8Size_of_mem_toDigits h
  · exact hone c (List.mem_append_right _ h)

/-- The mark of a cut is plain. -/
theorem truncatedMark_plain (n : Nat) :
    '"' ∉ truncatedMark n ∧ '\\' ∉ truncatedMark n ∧ '\n' ∉ truncatedMark n ∧ truncatedMark n ≠ [] := by
  have hmem : ∀ c ∈ truncatedMark n,
      c ∈ "...[TRUNCATED_".toList ∨ c.isDigit = true ∨ c ∈ "chars]".toList := fun c hc =>
    (mem_truncatedMark hc).imp_right (Or.imp_left (Nat.isDigit_of_mem_toDigits (by decide) (Nat.le_refl 10)))
  refine ⟨fun h => ?_, fun h => ?_, fun h => ?_, List.append_ne_nil_of_right_ne_nil _ (by decide)⟩
  · rcases hmem _ h with h | h | h <;> exact absurd h (by decide)
  · rcases hmem _ h with h | h | h <;> exact absurd h (by decide)
  · rcases hmem _ h with h | h | h <;> exact absurd h (by decide)

/-- The texts of an error log or of a connection log that is not too long. -/
def TextHolds (text : List Char) : Prop := QuotesSafe text ∧ ¬ OddEnd text

/-- The cut at byte `n` of what the text becomes is between two characters, and what is kept holds. -/
def CutHolds (text : List Char) (n : Nat) : Prop := CutAt text n ∧ QuotesSafeUpTo text n

/-! ### `write_error_log` -/

structure ErrorLine where
  table     : List Char
  level     : List Char
  module    : List Char
  errorCode : Option (List Char)
  message   : List Char
  context   : Option (List Char)

namespace ErrorLine

def opening (c : ErrorLine) : List Char :=
  c.table ++ ",level=".toList ++ tagValue c.level ++ ",module=".toList ++ tagValue c.module ++ " error_code=\"".toList

def fields (c : ErrorLine) : List (List Char × List Char) :=
  [(c.opening, escapeQuotes (c.errorCode.getD [])), (",message=\"".toList, escapeText c.message),
    (",context=\"".toList, escapeText (c.context.getD []))]

/-- `write_error_log` -/
def write (c : ErrorLine) (now : Int) : List Char := assemble '"' c.fields (timestamp now)

/-- What the tags, the code, the message and the context must be for the line to hold. -/
def Holds (c : ErrorLine) : Prop :=
  ('\n' ∉ c.table ∧ '\n' ∉ c.level ∧ '\n' ∉ c.module ∧ '\n' ∉ c.errorCode.getD []) ∧
    TextHolds (c.errorCode.getD []) ∧ TextHolds c.message ∧ TextHolds (c.context.getD [])

theorem newline_mem_opening_iff (c : ErrorLine) :
    '\n' ∈ c.opening ↔ '\n' ∈ c.table ∨ '\n' ∈ c.level ∨ '\n' ∈ c.module := by
  have hliteral : '\n' ∉ ",level=".toList ∧ '\n' ∉ ",module=".toList ∧ '\n' ∉ " error_code=\"".toList := by decide
  simp only [opening, List.mem_append, newline_mem_tagValue_iff, hliteral, or_false, or_assoc]

theorem intact_iff_holds (c : ErrorLine) (now : Int) : Intact c.fields (timestamp now) ↔ c.Holds := by
  have hliteral : '\n' ∉ ",message=\"".toList ∧ '\n' ∉ ",context=\"".toList := by decide
  rw [intact_iff, and_iff_left (timestamp_plain now).2]
  unfold fields Holds TextHolds
  simp only [List.forall_mem_cons, newline_mem_opening_iff, newline_mem_escapeQuotes_iff, newline_notMem_escapeText,
    closed_escapeText_iff, closed_escapeQuotes_iff, hliteral, not_or, not_false_eq_true, true_and, List.not_mem_nil,
    false_imp_iff, implies_true, and_true]
  tauto

end ErrorLine

/-! ### `write_connection_log_with_attempt` -/

structure ConnectionLine where
  table        : List Char
  exchange     : List Char
  connectionId : List Char
  eventType    : List Char
  status       : List Char
  errorMsg     : Option (List Char)
  attempt      : Option Nat

namespace ConnectionLine

def opening (c : ConnectionLine) : List Char :=
  c.table ++ ",exchange=".toList ++ tagValue c.exchange ++ ",connection_id=".toList ++ tagValue c.connectionId ++
    ",event_type=".toList ++ tagValue c.eventType ++ " status=\"".toList

def closing (c : ConnectionLine) (now : Int) : List Char :=
  ",attempt=".toList ++ decimal (c.attempt.getD 1) ++ ['i'] ++ timestamp now

theorem closing_plain (c : ConnectionLine) (now : Int) : '"' ∉ c.closing now ∧ '\n' ∉ c.closing now := by
  have hliteral : ('"' ∉ ",attempt=".toList ∧ '\n' ∉ ",attempt=".toList) ∧ '"' ∉ ['i'] ∧ '\n' ∉ ['i'] := by decide
  have hdecimal : ∀ n : Int, '"' ∉ decimal n ∧ '\n' ∉ decimal n :=
    fun n => ⟨fun h => (timestamp_plain n).1 (List.mem_cons_of_mem _ h),
      fun h => (timestamp_plain n).2 (List.mem_cons_of_mem _ h)⟩
  unfold closing
  simp only [List.mem_append, not_or, hliteral, hdecimal, timestamp_plain, not_false_eq_true, and_self]

/-- The line around the error message. -/
def frame (c : ConnectionLine) : Frame where
  prior   := [(c.opening, c.status)]
  opening := ",error_msg=\"".toList
  closing := c.closing
  plain   := c.closing_plain

/-- `write_connection_log_with_attempt` -/
def write (c : ConnectionLine) (now : Int) : Option (List Char) :=
  let errorMsg := c.errorMsg.getD []
  (shorten 500 470 (byteLen errorMsg) (escapeText errorMsg)).map fun errorMsgEscaped => c.frame.line errorMsgEscaped now

/-- What the tags, the status and the error message must be for the line to hold. -/
def Holds (c : ConnectionLine) : Prop :=
  ('\n' ∉ c.table ∧ '\n' ∉ c.exchange ∧ '\n' ∉ c.connectionId ∧ '\n' ∉ c.eventType) ∧
    ('\n' ∉ c.status ∧ Closed '"' '\\' c.status) ∧
    if escapedLen (c.errorMsg.getD []) ≤ 500 then TextHolds (c.errorMsg.getD [])
    else CutHolds (c.errorMsg.getD []) 470

theorem frame_holds_iff (c : ConnectionLine) :
    c.frame.Holds ↔ ('\n' ∉ c.table ∧ '\n' ∉ c.exchange ∧ '\n' ∉ c.connectionId ∧ '\n' ∉ c.eventType) ∧
      '\n' ∉ c.status ∧ Closed '"' '\\' c.status := by
  have hliteral : ('\n' ∉ ",exchange=".toList ∧ '\n' ∉ ",connection_id=".toList ∧ '\n' ∉ ",event_type=".toList) ∧
      '\n' ∉ " status=\"".toList ∧ '\n' ∉ ",error_msg=\"".toList := by decide
  unfold Frame.Holds frame
  simp only [List.forall_mem_singleton, opening, List.mem_append, newline_mem_tagValue_iff, hliteral, or_false, not_or,
    not_false_eq_true, and_true, and_assoc]

theorem sound_iff_holds (c : ConnectionLine) (now : Int) : c.frame.Sound (c.write now) ↔ c.Holds := by
  unfold write shorten Holds TextHolds CutHolds
  dsimp only
  rw [← and_assoc, ← frame_holds_iff, byteLen_escapeText]
  split_ifs with hlong hfits hfits
  · omega
  · obtain ⟨hquote, hslash, hnewline, hne⟩ := truncatedMark_plain (byteLen (c.errorMsg.getD []))
    rw [Option.map_map]
    exact c.frame.sound_cut_iff _ 470 hquote hslash hnewline hne now
  · exact c.frame.sound_escaped_iff _ now
  · omega

theorem write_of_short {c : ConnectionLine} (h : escapedLen (c.errorMsg.getD []) ≤ 500) (now : Int) :
    c.write now = some (c.frame.line (escapeText (c.errorMsg.getD [])) now) := by
  unfold write shorten
  dsimp only
  rw [byteLen_escapeText, if_neg (by omega)]
  rfl

end ConnectionLine

/-! ### `write_full_log` -/

structure FullLine where
  table    : List Char
  level    : List Char
  target   : List Char
  threadId : List Char
  message  : List Char

/-- `...[TRUNCATED_PACKET]` -/
def packetMark : List Char := "...[TRUNCATED_PACKET]".toList

namespace FullLine

def opening (c : FullLine) : List Char :=
  c.table ++ ",level=".toList ++ tagValue c.level ++ ",target=".toList ++ tagValue c.target ++
    ",thread_id=".toList ++ tagValue c.threadId ++ " message=\"".toList

/-- The line around the message. -/
def frame (c : FullLine) : Frame where
  prior   := []
  opening := c.opening
  closing := timestamp
  plain   := timestamp_plain

/-- "Double-check total packet size and truncate further if needed"; the time is taken again. -/
def fitPacket (c : FullLine) (message : List Char) (now now' : Int) : Option (List Char) :=
  let line := c.frame.line message now
  if byteLen line > 1200 then
    let excess := byteLen line - 1200 + 100
    if byteLen message > excess then
      (sliceTo message (byteLen message - excess)).map fun kept => c.frame.line (kept ++ packetMark) now'
    else some line
  else some line

/-- `write_full_log` -/
def write (c : FullLine) (now now' : Int) : Option (List Char) := do
  let message ← shorten 800 750 (byteLen c.message) (removeReturns (escapeText c.message))
  c.fitPacket message now now'

/-- The message without carriage returns, which are dropped. -/
def text (c : FullLine) : List Char := c.message.filter (· ≠ '\r')

/-- The bytes of the line around the message. -/
def overhead (c : FullLine) (now : Int) : Nat := byteLen (c.frame.line [] now)

/-- A message of so many bytes is not cut for the packet. -/
def FitsPacket (c : FullLine) (now : Int) (len : Nat) : Prop := c.overhead now + len ≤ 1200 ∨ 1100 ≤ c.overhead now

instance (c : FullLine) (now : Int) (len : Nat) : Decidable (c.FitsPacket now len) :=
  inferInstanceAs (Decidable (_ ∨ _))

/-- Where the message is cut for the packet. -/
def room (c : FullLine) (now : Int) : Nat := 1100 - c.overhead now

/-- The length of a message that was cut at byte 750 and marked. -/
def markedLen (c : FullLine) : Nat := 750 + byteLen (truncatedMark (byteLen c.message))

/-- What the tags and the message must be for the line to hold. -/
def Holds (c : FullLine) (now : Int) : Prop :=
  ('\n' ∉ c.table ∧ '\n' ∉ c.level ∧ '\n' ∉ c.target ∧ '\n' ∉ c.threadId) ∧
    if escapedLen c.text ≤ 800 then
      if c.FitsPacket now (escapedLen c.text) then TextHolds c.text else CutHolds c.text (c.room now)
    else
      CutAt c.text 750 ∧
        if c.FitsPacket now c.markedLen then QuotesSafeUpTo c.text 750
        else if c.room now ≤ 750 then CutHolds c.text (c.room now) else QuotesSafeUpTo c.text 750

theorem frame_holds_iff (c : FullLine) :
    c.frame.Holds ↔ '\n' ∉ c.table ∧ '\n' ∉ c.level ∧ '\n' ∉ c.target ∧ '\n' ∉ c.threadId := by
  have hliteral : ('\n' ∉ ",level=".toList ∧ '\n' ∉ ",target=".toList) ∧
      '\n' ∉ ",thread_id=".toList ∧ '\n' ∉ " message=\"".toList := by decide
  unfold Frame.Holds frame
  simp only [opening, List.mem_append, newline_mem_tagValue_iff, hliteral, or_false, not_or, and_assoc,
    List.not_mem_nil, false_imp_iff, implies_true, true_and]

theorem byteLen_line (c : FullLine) (message : List Char) (now : Int) :
    byteLen (c.frame.line message now) = c.overhead now + byteLen message := by
  simp only [overhead, Frame.line, Frame.fields, frame, List.nil_append, assemble, byteLen_append, byteLen_cons]
  omega

theorem fitPacket_of_fits {c : FullLine} {message : List Char} {now : Int} (h : c.FitsPacket now (byteLen message))
    (now' : Int) : c.fitPacket message now now' = some (c.frame.line message now) := by
  unfold fitPacket
  dsimp only
  rw [byteLen_line]
  unfold FitsPacket at h
  split_ifs
  · omega
  · rfl
  · rfl

theorem fitPacket_of_not_fits {c : FullLine} {message : List Char} {now : Int}
    (h : ¬ c.FitsPacket now (byteLen message)) (now' : Int) :
    c.fitPacket message now now' =
      (sliceTo message (c.room now)).map fun kept => c.frame.line (kept ++ packetMark) now' := by
  unfold FitsPacket at h
  have hroom : byteLen message - (c.overhead now + byteLen message - 1200 + 100) = c.room now := by
    unfold room
    omega
  unfold fitPacket
  dsimp only
  rw [byteLen_line, if_pos (by omega), if_pos (by omega), hroom]

theorem packetMark_plain : '"' ∉ packetMark ∧ '\\' ∉ packetMark ∧ '\n' ∉ packetMark ∧ packetMark ≠ [] := by
  decide

/-- A cut in the mark after a text: the text and a piece of the mark. -/
theorem sliceTo_append_truncatedMark {n k : Nat} (hk : k ≤ byteLen (truncatedMark n)) (kept : List Char) :
    ∃ piece, piece ⊆ truncatedMark n ∧
      sliceTo (kept ++ truncatedMark n) (byteLen kept + k) = some (kept ++ piece) := by
  have hboundary : IsCharBoundary (truncatedMark n) k :=
    isCharBoundary_of_ascii (fun _ => utf8Size_of_mem_truncatedMark) hk
  obtain ⟨piece, hpiece⟩ := Option.isSome_iff_exists.mp (isSome_sliceTo.mpr hboundary)
  refine ⟨piece, (sliceTo_eq_some_iff.mp hpiece).1.subset, ?_⟩
  rw [sliceTo_append_right, hpiece, Option.map_some]

/-- The message is escaped and stripped, shortened, and fitted into the packet. -/
theorem write_eq (c : FullLine) (now now' : Int) :
    c.write now now' = (if byteLen (escapeText c.text) > 800 then
      (sliceTo (escapeText c.text) 750).map fun kept => kept ++ truncatedMark (byteLen c.message)
      else some (escapeText c.text)).bind fun message => c.fitPacket message now now' := by
  unfold write shorten
  rw [removeReturns_escapeText]
  rfl

/-- A message that is not cut at byte 750. -/
theorem sound_short_iff {c : FullLine} (h : escapedLen c.text ≤ 800) (now now' : Int) :
    c.frame.Sound (c.write now now') ↔ c.frame.Holds ∧
      if c.FitsPacket now (escapedLen c.text) then TextHolds c.text else CutHolds c.text (c.room now) := by
  rw [write_eq, byteLen_escapeText, if_neg (by omega), Option.bind_some]
  split_ifs with hfits
  · rw [fitPacket_of_fits (by rw [byteLen_escapeText]; exact hfits)]
    exact c.frame.sound_escaped_iff c.text now
  · rw [fitPacket_of_not_fits (by rw [byteLen_escapeText]; exact hfits)]
    obtain ⟨hquote, hslash, hnewline, hne⟩ := packetMark_plain
    exact c.frame.sound_cut_iff c.text (c.room now) hquote hslash hnewline hne now'

/-- A message that is cut at byte 750 and marked, and may be cut again, before the mark or in it. -/
theorem sound_long_iff {c : FullLine} (h : ¬ escapedLen c.text ≤ 800) (now now' : Int) :
    c.frame.Sound (c.write now now') ↔ c.frame.Holds ∧ CutAt c.text 750 ∧
      if c.FitsPacket now c.markedLen then QuotesSafeUpTo c.text 750
      else if c.room now ≤ 750 then CutHolds c.text (c.room now) else QuotesSafeUpTo c.text 750 := by
  rw [write_eq, byteLen_escapeText, if_pos (by omega)]
  cases hslice : sliceTo (escapeText c.text) 750 with
  | none =>
      have hcut : ¬ CutAt c.text 750 := by
        rw [← isCharBoundary_escapeText_iff, ← isSome_sliceTo, hslice]
        simp
      simp [c.frame.not_sound_none, hcut]
  | some kept =>
      obtain ⟨⟨rest, htext⟩, hkept⟩ := sliceTo_eq_some_iff.mp hslice
      have hlen : byteLen (kept ++ truncatedMark (byteLen c.message)) = c.markedLen := by
        rw [byteLen_append, hkept]
        rfl
      -- what a plain mark after the kept text gives
      have hmark : ∀ mark : List Char, ('"' ∉ mark ∧ '\\' ∉ mark ∧ '\n' ∉ mark ∧ mark ≠ []) → ∀ time,
          (c.frame.Sound (some (c.frame.line (kept ++ mark) time)) ↔
            c.frame.Holds ∧ CutAt c.text 750 ∧ QuotesSafeUpTo c.text 750) := by
        rintro mark ⟨hquote, hslash, hnewline, hne⟩ time
        have hcut := c.frame.sound_cut_iff c.text 750 hquote hslash hnewline hne time
        rw [hslice] at hcut
        exact hcut
      rw [Option.map_some, Option.bind_some]
      split_ifs with hfits hroom
      · rw [fitPacket_of_fits (by rw [hlen]; exact hfits)]
        exact hmark _ (truncatedMark_plain _) now
      · -- the second cut is in the text
        have hcut : CutAt c.text 750 := by
          rw [← isCharBoundary_escapeText_iff, ← isSome_sliceTo, hslice]
          rfl
        have hagain : sliceTo (kept ++ truncatedMark (byteLen c.message)) (c.room now)
            = sliceTo (escapeText c.text) (c.room now) := by
          rw [← htext, sliceTo_append_left (by omega), sliceTo_append_left (by omega)]
        obtain ⟨hquote, hslash, hnewline, hne⟩ := packetMark_plain
        rw [fitPacket_of_not_fits (by rw [hlen]; exact hfits), hagain, and_iff_right hcut]
        exact c.frame.sound_cut_iff c.text (c.room now) hquote hslash hnewline hne now'
      · -- the second cut is in the mark
        obtain ⟨k, hk⟩ : ∃ k, c.room now = byteLen kept + k := ⟨c.room now - 750, by omega⟩
        have hinside : k ≤ byteLen (truncatedMark (byteLen c.message)) := by
          unfold FitsPacket markedLen at hfits
          unfold room at hk
          omega
        obtain ⟨piece, hsubset, hslice'⟩ := sliceTo_append_truncatedMark hinside kept
        obtain ⟨hquote, hslash, hnewline, -⟩ := truncatedMark_plain (byteLen c.message)
        obtain ⟨hquote', hslash', hnewline', hne'⟩ := packetMark_plain
        rw [fitPacket_of_not_fits (by rw [hlen]; exact hfits), hk, hslice', Option.map_some, List.append_assoc]
        apply hmark
        simp only [List.mem_append, not_or]
        exact ⟨⟨fun hmem => hquote (hsubset hmem), hquote'⟩, ⟨fun hmem => hslash (hsubset hmem), hslash'⟩,
          ⟨fun hmem => hnewline (hsubset hmem), hnewline'⟩, List.append_ne_nil_of_right_ne_nil _ hne'⟩

theorem sound_iff_holds (c : FullLine) (now now' : Int) : c.frame.Sound (c.write now now') ↔ c.Holds now := by
  unfold Holds
  rw [← frame_holds_iff]
  by_cases hshort : escapedLen c.text ≤ 800
  · rw [if_pos hshort]
    exact sound_short_iff hshort now now'
  · rw [if_neg hshort]
    exact sound_long_iff hshort now now'

/-- Nothing is cut, and nothing dropped. -/
def Untruncated (c : FullLine) (now : Int) : Prop :=
  '\r' ∉ c.message ∧ escapedLen c.message ≤ 800 ∧ c.FitsPacket now (escapedLen c.message)

theorem write_of_untruncated {c : FullLine} {now : Int} (h : c.Untruncated now) (now' : Int) :
    c.write now now' = some (c.frame.line (escapeText c.message) now) := by
  obtain ⟨hreturn, hshort, hfits⟩ := h
  have htext : c.text = c.message := by
    unfold text
    rw [List.filter_eq_self]
    intro x hx
    simpa using fun heq : x = '\r' => hreturn (heq ▸ hx)
  rw [write_eq, htext, byteLen_escapeText, if_neg (by omega)]
  exact fitPacket_of_fits (by rw [byteLen_escapeText]; exact hfits) now'

end FullLine

/-! ## The fields of all three -/

/-- **The fields of a log line cannot be broken out of** exactly if the texts hold: no quote of a text follows an odd
    run of backslashes, a text that is not cut does not end in one, cuts are between two characters, and what is
    written as it is has no newline. Fields of different texts that are neither cut nor stripped differ exactly if
    the texts do once newlines are written as `\n`; those of different error codes always do. -/
theorem ilp_fields_iff (full : FullLine) (connection : ConnectionLine) (error : ErrorLine) (now now' : Int)
    (s t : List Char) :
    ((full.frame.Sound (full.write now now') ↔ full.Holds now) ∧
      (connection.frame.Sound (connection.write now) ↔ connection.Holds) ∧
      (Intact error.fields (timestamp now) ↔ error.Holds)) ∧
    ((full.Untruncated now → full.write now now' = some (full.frame.line (escapeText full.message) now)) ∧
      (escapedLen (connection.errorMsg.getD []) ≤ 500 →
        connection.write now = some (connection.frame.line (escapeText (connection.errorMsg.getD [])) now)) ∧
      (escapeText s ≠ escapeText t ↔ escapeNewlines s ≠ escapeNewlines t) ∧
      (escapeQuotes s ≠ escapeQuotes t ↔ s ≠ t)) := by
  refine ⟨⟨full.sound_iff_holds now now', connection.sound_iff_holds now, error.intact_iff_holds now⟩, ?_, ?_, ?_, ?_⟩
  · intro huncut
    exact FullLine.write_of_untruncated huncut now'
  · intro hshort
    exact ConnectionLine.write_of_short hshort now
  · exact not_congr escapeText_eq_iff
  · exact not_congr escapeQuotes_injective.eq_iff

/-- The backslash at the end of the message escapes the quote after it. -/
def backslashAtEnd : ConnectionLine where
  table        := "feeder_connection_logs".toList
  exchange     := "binance".toList
  connectionId := "c1".toList
  eventType    := "error".toList
  status       := "error".toList
  errorMsg     := some "no such file C:\\".toList
  attempt      := none

/-- The code is written with its newline. -/
def newlineInCode : ErrorLine where
  table     := "feeder_error_logs".toList
  level     := "error".toList
  module    := "websocket".toList
  errorCode := some "parse\nerror".toList
  message   := "bad frame".toList
  context   := none

/-- Byte 750 is inside a letter. -/
def accents : FullLine where
  table    := "feeder_full_logs".toList
  level    := "ERROR".toList
  target   := "feeder".toList
  threadId := "1".toList
  message  := 'a' :: List.replicate 400 'é'

theorem ilp_fields_broken :
    ¬ backslashAtEnd.frame.Sound (backslashAtEnd.write 0) ∧
    '\n' ∈ newlineInCode.write 0 ∧
    accents.write 0 0 = none ∧
    escapeText "line\nbreak".toList = escapeText "line\\nbreak".toList := by
  refine ⟨?_, by decide +kernel, by decide +kernel, by decide +kernel⟩
  rw [ConnectionLine.sound_iff_holds]
  rintro ⟨-, -, h⟩
  rw [if_pos (by decide +kernel)] at h
  exact h.2 (by decide +kernel)

end Logger
end TradingPlatform
