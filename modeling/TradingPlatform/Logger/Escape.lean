import TradingPlatform.Library.Quoted
import TradingPlatform.Logger.Truncation
import TradingPlatform.Rust.Collect

/-!
# `Logger.Escape` — what the escaping of the log fields achieves

Quotes are escaped, newlines written as `\n`, and backslashes left as they are. So inside its field a text closes
exactly if none of its quotes follows an odd run of backslashes and it does not end in one
(`closed_escapeText_iff`). A prefix of the escaped text may cut an escape in two; it is settled by plain characters
after it (`closed_prefix_append_iff`).
-/

namespace TradingPlatform
namespace Logger

open Rust

/-- `s.replace(c, with)` -/
def replaceChar (c : Char) (replacement s : List Char) : List Char :=
  s.flatMap fun x => if x = c then replacement else [x]

/-- `.replace('"', "\\\"")` -/
def escapeQuotes (s : List Char) : List Char := replaceChar '"' ['\\', '"'] s

/-- `.replace('\n', "\\n")` -/
def escapeNewlines (s : List Char) : List Char := replaceChar '\n' ['\\', 'n'] s

/-- `.replace('"', "\\\"").replace('\n', "\\n")` -/
def escapeText (s : List Char) : List Char := escapeNewlines (escapeQuotes s)

/-- `.replace('\r', "")` -/
def removeReturns (s : List Char) : List Char := replaceChar '\r' [] s

/-! ## Character by character -/

/-- What becomes of a character. -/
def escapeChar (c : Char) : List Char :=
  if c = '"' then ['\\', '"'] else if c = '\n' then ['\\', 'n'] else [c]

theorem escapeText_eq (s : List Char) : escapeText s = s.flatMap escapeChar := by
  unfold escapeText escapeNewlines escapeQuotes replaceChar
  rw [List.flatMap_assoc]
  congr 1
  funext c
  by_cases hquote : c = '"'
  · rw [hquote]
    rfl
  by_cases hnewline : c = '\n'
  · rw [hnewline]
    rfl
  · simp [escapeChar, hquote, hnewline]

@[simp] theorem escapeText_nil : escapeText [] = [] := rfl

@[simp] theorem escapeText_cons (c : Char) (s : List Char) : escapeText (c :: s) = escapeChar c ++ escapeText s := by
  rw [escapeText_eq, escapeText_eq, List.flatMap_cons]

@[simp] theorem escapeText_append (s t : List Char) : escapeText (s ++ t) = escapeText s ++ escapeText t := by
  rw [escapeText_eq, escapeText_eq, escapeText_eq, List.flatMap_append]

/-- Newlines may be escaped first. -/
theorem escapeText_eq_escapeQuotes (s : List Char) : escapeText s = escapeQuotes (escapeNewlines s) := by
  rw [escapeText_eq]
  unfold escapeNewlines escapeQuotes replaceChar
  rw [List.flatMap_assoc]
  congr 1
  funext c
  by_cases hquote : c = '"'
  · rw [hquote]
    rfl
  by_cases hnewline : c = '\n'
  · rw [hnewline]
    rfl
  · simp [escapeChar, hquote, hnewline]

/-- Carriage returns may be removed first. -/
theorem removeReturns_escapeText (s : List Char) :
    removeReturns (escapeText s) = escapeText (s.filter (· ≠ '\r')) := by
  induction s with
  | nil => rfl
  | cons c s ih =>
      unfold removeReturns replaceChar at ih ⊢
      rw [escapeText_cons, List.flatMap_append, ih]
      by_cases hreturn : c = '\r'
      · subst hreturn
        rfl
      · rw [List.filter_cons_of_pos (by simpa using hreturn), escapeText_cons]
        congr 1
        unfold escapeChar
        split_ifs <;> simp [hreturn]

theorem newline_notMem_escapeText (s : List Char) : '\n' ∉ escapeText s := by
  rw [escapeText_eq, List.mem_flatMap]
  rintro ⟨c, -, hc⟩
  unfold escapeChar at hc
  split_ifs at hc with hquote hnewline
  · simp at hc
  · simp at hc
  · exact hnewline (List.mem_singleton.mp hc).symm

theorem newline_mem_escapeQuotes_iff {s : List Char} : '\n' ∈ escapeQuotes s ↔ '\n' ∈ s := by
  unfold escapeQuotes replaceChar
  rw [List.mem_flatMap]
  constructor
  · rintro ⟨c, hc, hmem⟩
    split_ifs at hmem
    · simp at hmem
    · rw [List.mem_singleton.mp hmem]
      exact hc
  · exact fun h => ⟨'\n', h, by simp⟩

/-! ## Which texts close -/

/-- The text ends in an odd run of backslashes. -/
def OddEnd (s : List Char) : Prop := (s.reverse.takeWhile (· = '\\')).length % 2 = 1

instance (s : List Char) : Decidable (OddEnd s) := inferInstanceAs (Decidable (_ = _))

/-- No quote follows an odd run of backslashes. -/
def QuotesSafe (s : List Char) : Prop := ∀ before after, s = before ++ '"' :: after → ¬ OddEnd before

/-- What a character of the text does to its field once it is escaped; the flag is an odd run of backslashes. -/
def textStep (odd : Bool) (c : Char) : Option Bool :=
  if c = '"' then if odd then none else some false else if c = '\\' then some !odd else some false

theorem scan_escapeChar (odd : Bool) (c : Char) : Quoted.scan '"' '\\' odd (escapeChar c) = textStep odd c := by
  unfold escapeChar textStep
  split_ifs <;> cases odd <;> simp_all [Quoted.step]

theorem scan_flatMap {f : Char → List Char} (h : ∀ odd c, Quoted.scan '"' '\\' odd (f c) = textStep odd c)
    (odd : Bool) (s : List Char) : Quoted.scan '"' '\\' odd (s.flatMap f) = s.foldlM textStep odd := by
  induction s generalizing odd with
  | nil => rfl
  | cons c s ih =>
      rw [List.flatMap_cons, Quoted.scan_append, h, List.foldlM_cons]
      exact congrArg _ (funext ih)

theorem scan_escapeText (odd : Bool) (s : List Char) :
    Quoted.scan '"' '\\' odd (escapeText s) = s.foldlM textStep odd := by
  rw [escapeText_eq]
  exact scan_flatMap scan_escapeChar odd s

/-- A newline that is not escaped makes no difference to the end of its field. -/
theorem scan_escapeQuotes (odd : Bool) (s : List Char) :
    Quoted.scan '"' '\\' odd (escapeQuotes s) = s.foldlM textStep odd := by
  apply scan_flatMap
  intro odd c
  unfold textStep
  split_ifs <;> cases odd <;> simp_all [Quoted.step]

theorem oddEnd_concat_iff {s : List Char} {c : Char} : OddEnd (s ++ [c]) ↔ c = '\\' ∧ ¬ OddEnd s := by
  unfold OddEnd
  rw [List.reverse_append, List.reverse_singleton, List.singleton_append]
  by_cases hc : c = '\\'
  · rw [List.takeWhile_cons_of_pos (by simpa using hc), List.length_cons, and_iff_right hc]
    omega
  · rw [List.takeWhile_cons_of_neg (by simpa using hc)]
    simp [hc]

theorem quotesSafe_concat_iff {s : List Char} {c : Char} :
    QuotesSafe (s ++ [c]) ↔ QuotesSafe s ∧ (c = '"' → ¬ OddEnd s) := by
  constructor
  · intro h
    refine ⟨fun before after hs => h before (after ++ [c]) (by rw [hs]; simp), ?_⟩
    rintro rfl
    exact h s [] rfl
  · rintro ⟨hs, hc⟩ before after hsplit
    rcases List.eq_nil_or_concat' after with rfl | ⟨after, d, rfl⟩
    · obtain ⟨rfl, hquote⟩ := List.append_inj' hsplit rfl
      exact hc (List.singleton_inj.mp hquote)
    · rw [← List.cons_append, ← List.append_assoc] at hsplit
      exact hs before after (List.append_inj' hsplit rfl).1

/-- The scan of a whole text: no quote may break it, and the flag at the end is its last run of backslashes. -/
theorem foldlM_textStep_eq_some_iff {s : List Char} {odd : Bool} :
    s.foldlM textStep false = some odd ↔ QuotesSafe s ∧ odd = decide (OddEnd s) := by
  induction s using List.reverseRecOn generalizing odd with
  | nil =>
      have hsafe : QuotesSafe [] := by
        intro before after h
        simp at h
      have hend : decide (OddEnd []) = false := rfl
      rw [hend, and_iff_right hsafe]
      exact ⟨fun h => (Option.some.inj h).symm, fun h => congrArg some h.symm⟩
  | append_singleton s c ih =>
      have hstep : (s ++ [c]).foldlM textStep false = some odd ↔
          QuotesSafe s ∧ textStep (decide (OddEnd s)) c = some odd := by
        rw [foldlM_concat, Option.bind_eq_some_iff]
        constructor
        · rintro ⟨flag, hflag, hc⟩
          obtain ⟨hsafe, rfl⟩ := ih.mp hflag
          exact ⟨hsafe, hc⟩
        · rintro ⟨hsafe, hc⟩
          exact ⟨_, ih.mpr ⟨hsafe, rfl⟩, hc⟩
      rw [hstep, quotesSafe_concat_iff, and_assoc]
      apply and_congr_right
      intro _
      unfold textStep
      by_cases hquote : c = '"'
      · by_cases hodd : OddEnd s <;> simp [hquote, hodd, oddEnd_concat_iff, eq_comm]
      · by_cases hslash : c = '\\'
        · by_cases hodd : OddEnd s <;> simp [hslash, hodd, oddEnd_concat_iff, eq_comm]
        · simp [hquote, hslash, oddEnd_concat_iff]

theorem closed_iff_foldlM {s : List Char} : s.foldlM textStep false = some false ↔ QuotesSafe s ∧ ¬ OddEnd s := by
  rw [foldlM_textStep_eq_some_iff]
  simp

/-- **An escaped text closes** exactly if no quote in it follows an odd run of backslashes and it ends in none. -/
theorem closed_escapeText_iff {s : List Char} :
    Quoted.Closed '"' '\\' (escapeText s) ↔ QuotesSafe s ∧ ¬ OddEnd s := by
  unfold Quoted.Closed
  rw [scan_escapeText, closed_iff_foldlM]

theorem closed_escapeQuotes_iff {s : List Char} :
    Quoted.Closed '"' '\\' (escapeQuotes s) ↔ QuotesSafe s ∧ ¬ OddEnd s := by
  unfold Quoted.Closed
  rw [scan_escapeQuotes, closed_iff_foldlM]

/-! ## Different texts -/

theorem escapeQuotes_cons (c : Char) (s : List Char) :
    escapeQuotes (c :: s) = if c = '"' then '\\' :: '"' :: escapeQuotes s else c :: escapeQuotes s := by
  unfold escapeQuotes replaceChar
  rw [List.flatMap_cons]
  split_ifs <;> rfl

theorem head?_escapeQuotes (s : List Char) : (escapeQuotes s).head? ≠ some '"' := by
  cases s with
  | nil => simp [escapeQuotes, replaceChar]
  | cons c s =>
      rw [escapeQuotes_cons]
      split_ifs with hquote
      · simp
      · simpa using hquote

/-- The backslash before each quote can be taken away again. -/
theorem escapeQuotes_injective : Function.Injective escapeQuotes := by
  intro s
  induction s with
  | nil =>
      intro t h
      cases t with
      | nil => rfl
      | cons d t =>
          rw [escapeQuotes_cons] at h
          split_ifs at h <;> cases h
  | cons c s ih =>
      intro t h
      cases t with
      | nil =>
          rw [escapeQuotes_cons] at h
          split_ifs at h <;> cases h
      | cons d t =>
          rw [escapeQuotes_cons, escapeQuotes_cons] at h
          split_ifs at h with hc hd hd
          · obtain ⟨-, h⟩ := List.cons.inj h
            obtain ⟨-, h⟩ := List.cons.inj h
            rw [hc, hd, ih h]
          · obtain ⟨-, h⟩ := List.cons.inj h
            exact absurd (by rw [← h]; rfl) (head?_escapeQuotes t)
          · obtain ⟨-, h⟩ := List.cons.inj h
            exact absurd (by rw [h]; rfl) (head?_escapeQuotes s)
          · obtain ⟨rfl, htail⟩ := List.cons.inj h
            rw [ih htail]

/-- **Escaped texts differ** exactly if the texts do once their newlines are written as `\n`. -/
theorem escapeText_eq_iff {s t : List Char} : escapeText s = escapeText t ↔ escapeNewlines s = escapeNewlines t := by
  rw [escapeText_eq_escapeQuotes, escapeText_eq_escapeQuotes, escapeQuotes_injective.eq_iff]

/-! ## Prefixes of an escaped text -/

/-- The bytes of a text once it is escaped. -/
def escapedLen (s : List Char) : Nat := byteLen s + s.count '"' + s.count '\n'

/-- The byte offset `n` of the escaped text is between two characters: at the end of what some prefix of the text
    becomes, or inside an escape. -/
def CutAt (s : List Char) (n : Nat) : Prop :=
  ∃ kept rest, s = kept ++ rest ∧
    (escapedLen kept = n ∨ escapedLen kept + 1 = n ∧ ∃ c ∈ rest.head?, c = '"' ∨ c = '\n')

/-- No quote within the first `n` bytes of the escaped text follows an odd run of backslashes. -/
def QuotesSafeUpTo (s : List Char) (n : Nat) : Prop :=
  ∀ before after, s = before ++ '"' :: after → escapedLen before + 2 ≤ n → ¬ OddEnd before

theorem byteLen_escapeText (s : List Char) : byteLen (escapeText s) = escapedLen s := by
  induction s with
  | nil => rfl
  | cons c s ih =>
      rw [escapeText_cons, byteLen_append, ih]
      unfold escapedLen
      rw [byteLen_cons, List.count_cons, List.count_cons]
      by_cases hquote : c = '"'
      · have hsize : byteLen (escapeChar '"') = 2 ∧ '"'.utf8Size = 1 := by decide
        simp [hquote, hsize]
        omega
      by_cases hnewline : c = '\n'
      · have hsize : byteLen (escapeChar '\n') = 2 ∧ '\n'.utf8Size = 1 := by decide
        simp [hnewline, hsize]
        omega
      · simp [escapeChar, hquote, hnewline]
        omega

theorem escapedLen_append (s t : List Char) : escapedLen (s ++ t) = escapedLen s + escapedLen t := by
  rw [← byteLen_escapeText, escapeText_append, byteLen_append, byteLen_escapeText, byteLen_escapeText]

/-- A proper prefix of an escape: nothing, or its backslash. -/
theorem prefix_escapeChar {p : List Char} {c : Char} (h : p <+: escapeChar c) (hshort : p.length < (escapeChar c).length)
    {s : List Char} : p = [] ∨ p = ['\\'] ∧ ∃ d ∈ (c :: s).head?, d = '"' ∨ d = '\n' := by
  have hcases : escapeChar c = [c] ∨ (∃ d, escapeChar c = ['\\', d]) ∧ (c = '"' ∨ c = '\n') := by
    unfold escapeChar
    split_ifs with hquote hnewline
    · exact .inr ⟨⟨'"', rfl⟩, .inl hquote⟩
    · exact .inr ⟨⟨'n', rfl⟩, .inr hnewline⟩
    · exact .inl rfl
  cases p with
  | nil => exact .inl rfl
  | cons a p =>
      rcases hcases with hplain | ⟨⟨d, hescape⟩, hspecial⟩
      · rw [hplain] at hshort
        simp at hshort
      · rw [hescape] at h hshort
        have hp : p = [] := by
          rw [← List.length_eq_zero_iff]
          simp only [List.length_cons, List.length_nil] at hshort
          omega
        obtain ⟨rfl, -⟩ := List.cons_prefix_cons.mp h
        exact .inr ⟨by rw [hp], c, rfl, hspecial⟩

/-- **A prefix of an escaped text** is an escaped prefix, perhaps with the backslash of the next escape. -/
theorem prefix_escapeText_iff {p s : List Char} :
    p <+: escapeText s ↔ ∃ kept rest, s = kept ++ rest ∧
      (p = escapeText kept ∨ p = escapeText kept ++ ['\\'] ∧ ∃ c ∈ rest.head?, c = '"' ∨ c = '\n') := by
  constructor
  · intro h
    induction s generalizing p with
    | nil => exact ⟨[], [], rfl, .inl (List.prefix_nil.mp h)⟩
    | cons c s ih =>
        rw [escapeText_cons] at h
        by_cases hshort : p.length < (escapeChar c).length
        · -- at most the backslash of this character's own escape
          have hp : p <+: escapeChar c := List.prefix_of_prefix_length_le h (List.prefix_append _ _) hshort.le
          exact ⟨[], c :: s, rfl, prefix_escapeChar hp hshort⟩
        · obtain ⟨q, rfl⟩ : escapeChar c <+: p :=
            List.prefix_of_prefix_length_le (List.prefix_append _ _) h (not_lt.mp hshort)
          obtain ⟨kept, rest, rfl, hkept⟩ := ih ((List.prefix_append_right_inj _).mp h)
          refine ⟨c :: kept, rest, rfl, ?_⟩
          rw [escapeText_cons]
          rcases hkept with rfl | ⟨rfl, hnext⟩
          · exact .inl rfl
          · exact .inr ⟨(List.append_assoc _ _ _).symm, hnext⟩
  · rintro ⟨kept, rest, rfl, rfl | ⟨rfl, c, hc, hcase⟩⟩
    · rw [escapeText_append]
      exact List.prefix_append _ _
    · cases rest with
      | nil => simp at hc
      | cons d rest =>
          obtain rfl := Option.some.inj hc
          rw [escapeText_append, escapeText_cons, List.prefix_append_right_inj]
          rcases hcase with rfl | rfl
          · exact ⟨'"' :: escapeText rest, rfl⟩
          · exact ⟨'n' :: escapeText rest, rfl⟩

theorem isCharBoundary_escapeText_iff {s : List Char} {n : Nat} :
    IsCharBoundary (escapeText s) n ↔ CutAt s n := by
  rw [isCharBoundary_iff]
  constructor
  · rintro ⟨p, hp, hlen⟩
    obtain ⟨kept, rest, rfl, rfl | ⟨rfl, hnext⟩⟩ := prefix_escapeText_iff.mp hp
    · exact ⟨kept, rest, rfl, .inl (by rw [← byteLen_escapeText, hlen])⟩
    · rw [byteLen_append, byteLen_escapeText] at hlen
      exact ⟨kept, rest, rfl, .inr ⟨hlen, hnext⟩⟩
  · rintro ⟨kept, rest, hs, hlen | ⟨hlen, hnext⟩⟩
    · exact ⟨escapeText kept, prefix_escapeText_iff.mpr ⟨kept, rest, hs, .inl rfl⟩, by rw [byteLen_escapeText, hlen]⟩
    · refine ⟨escapeText kept ++ ['\\'], prefix_escapeText_iff.mpr ⟨kept, rest, hs, .inr ⟨rfl, hnext⟩⟩, ?_⟩
      rw [byteLen_append, byteLen_escapeText]
      exact hlen

/-- The quotes within so many bytes are those of the text kept, give or take half an escape. -/
theorem quotesSafe_iff_upTo {kept rest : List Char} {n : Nat} (hle : escapedLen kept ≤ n)
    (hlt : n < escapedLen kept + 2) : QuotesSafe kept ↔ QuotesSafeUpTo (kept ++ rest) n := by
  constructor
  · intro h before after hsplit hwithin
    rcases List.append_eq_append_iff.mp hsplit with ⟨middle, rfl, -⟩ | ⟨middle, rfl, hquote⟩
    · rw [escapedLen_append] at hwithin
      omega
    · cases middle with
      | nil =>
          rw [List.append_nil] at hlt
          omega
      | cons c middle =>
          obtain ⟨rfl, -⟩ := List.cons.inj hquote
          exact h before middle rfl
  · rintro h before after rfl
    apply h before (after ++ rest) (by simp)
    rw [escapedLen_append] at hle
    have hquote : 2 ≤ escapedLen ('"' :: after) := by
      have hsize : byteLen (escapeChar '"') = 2 := by decide
      rw [← byteLen_escapeText, escapeText_cons, byteLen_append, hsize]
      exact Nat.le_add_right _ _
    omega

/-- What a prefix of the escaped text does to its field. -/
theorem scan_prefix_ne_none_iff {p s : List Char} (h : p <+: escapeText s) :
    Quoted.scan '"' '\\' false p ≠ none ↔ QuotesSafeUpTo s (byteLen p) := by
  have hkept : ∀ kept : List Char, Quoted.scan '"' '\\' false (escapeText kept) ≠ none ↔ QuotesSafe kept := by
    intro kept
    rw [scan_escapeText, Option.ne_none_iff_exists']
    constructor
    · rintro ⟨odd, hodd⟩
      exact (foldlM_textStep_eq_some_iff.mp hodd).1
    · exact fun hsafe => ⟨_, foldlM_textStep_eq_some_iff.mpr ⟨hsafe, rfl⟩⟩
  obtain ⟨kept, rest, rfl, rfl | ⟨rfl, -⟩⟩ := prefix_escapeText_iff.mp h
  · rw [hkept, byteLen_escapeText]
    exact quotesSafe_iff_upTo (Nat.le_refl _) (by omega)
  · -- half an escape does not end the field
    have hhalf : Quoted.scan '"' '\\' false (escapeText kept ++ ['\\']) ≠ none ↔
        Quoted.scan '"' '\\' false (escapeText kept) ≠ none := by
      rw [Quoted.scan_append]
      cases Quoted.scan '"' '\\' false (escapeText kept) with
      | none => simp
      | some odd => cases odd <;> simp [Quoted.step]
    have hsize : byteLen ['\\'] = 1 := by decide
    rw [hhalf, hkept, byteLen_append, byteLen_escapeText, hsize]
    exact quotesSafe_iff_upTo (by omega) (by omega)

/-- **A cut text closes after a plain mark** exactly if the quotes that are kept are safe. -/
theorem closed_prefix_append_iff {p s mark : List Char} (h : p <+: escapeText s) (hquote : '"' ∉ mark)
    (hslash : '\\' ∉ mark) (hne : mark ≠ []) :
    Quoted.Closed '"' '\\' (p ++ mark) ↔ QuotesSafeUpTo s (byteLen p) := by
  rw [← scan_prefix_ne_none_iff h]
  unfold Quoted.Closed
  rw [Quoted.scan_append]
  cases Quoted.scan '"' '\\' false p with
  | none => simp
  | some odd => simp [Quoted.scan_plain hquote hslash hne]

end Logger
end TradingPlatform
