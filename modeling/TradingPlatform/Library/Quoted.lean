import Mathlib.Data.List.Infix

/-!
# `Library.Quoted` — quoted fields with escapes

A field ends at the first quote that is not escaped, and the escape character escapes the character after it. A
writer that puts texts between quotes is read back exactly if each text is closed, that is if no quote in it is
unescaped and its last character leaves the quote after it so (`readFields_assemble_iff`).
-/

namespace Quoted

variable {α : Type*} [DecidableEq α] (quote esc : α)

/-- One character inside a field: whether the one after it is escaped, or `none` at the quote that ends the field. -/
def step (escaped : Bool) (c : α) : Option Bool :=
  if escaped then some false else if c = quote then none else some (decide (c = esc))

/-- The characters of a text inside a field. -/
def scan (escaped : Bool) (s : List α) : Option Bool := s.foldlM (step quote esc) escaped

/-- A text that neither ends its field nor escapes the quote after it. -/
def Closed (s : List α) : Prop := scan quote esc false s = some false

instance (s : List α) : Decidable (Closed quote esc s) := inferInstanceAs (Decidable (_ = _))

/-- A field and what comes after its quote. -/
def read : Bool → List α → Option (List α × List α)
  | _, []              => none
  | escaped, c :: rest =>
    match step quote esc escaped c with
    | none      => some ([], rest)
    | some next => (read next rest).map fun (value, after) => (c :: value, after)

/-- Fields, each after an opening that is known, and what comes after the last one. -/
def readFields : List (List α) → List α → Option (List (List α) × List α)
  | [], s                  => some ([], s)
  | opening :: openings, s =>
    if opening <+: s then do
      let (value, rest) ← read quote esc false (s.drop opening.length)
      let (values, after) ← readFields openings rest
      return (value :: values, after)
    else none

/-- The text of fields with their openings, and a closing. -/
def assemble : List (List α × List α) → List α → List α
  | [], closing                         => closing
  | (opening, value) :: fields, closing => opening ++ (value ++ quote :: assemble fields closing)

variable {quote esc}

/-! ## Scanning -/

@[simp] theorem scan_nil (escaped : Bool) : scan quote esc escaped [] = some escaped := rfl

@[simp] theorem scan_cons (escaped : Bool) (c : α) (s : List α) :
    scan quote esc escaped (c :: s) = (step quote esc escaped c).bind fun next => scan quote esc next s :=
  List.foldlM_cons

theorem scan_append (escaped : Bool) (s t : List α) :
    scan quote esc escaped (s ++ t) = (scan quote esc escaped s).bind fun next => scan quote esc next t :=
  List.foldlM_append

/-- Plain characters after a text settle it: whatever the last one of the text escapes is not a quote. -/
theorem scan_plain {s : List α} (hquote : quote ∉ s) (hesc : esc ∉ s) (hne : s ≠ []) (escaped : Bool) :
    scan quote esc escaped s = some false := by
  induction s generalizing escaped with
  | nil => exact absurd rfl hne
  | cons c s ih =>
      obtain ⟨hcquote, hsquote⟩ := not_or.mp (List.mem_cons.not.mp hquote)
      obtain ⟨hcesc, hsesc⟩ := not_or.mp (List.mem_cons.not.mp hesc)
      have hstep : step quote esc escaped c = some false := by
        unfold step
        cases escaped <;> simp [Ne.symm hcquote, Ne.symm hcesc]
      rw [scan_cons, hstep, Option.bind_some]
      by_cases hs : s = []
      · rw [hs, scan_nil]
      · exact ih hsquote hsesc hs false

/-! ## Reading back -/

theorem step_eq_none_iff {escaped : Bool} {c : α} : step quote esc escaped c = none ↔ escaped = false ∧ c = quote := by
  unfold step
  cases escaped <;> simp

/-- **What is read of a field** is a closed text before a quote. -/
theorem read_eq_some_iff {escaped : Bool} {t s rest : List α} :
    read quote esc escaped t = some (s, rest) ↔ t = s ++ quote :: rest ∧ scan quote esc escaped s = some false := by
  induction t generalizing escaped s with
  | nil => simp [read]
  | cons c t ih =>
      unfold read
      cases hstep : step quote esc escaped c with
      | none =>
          obtain ⟨rfl, rfl⟩ := step_eq_none_iff.mp hstep
          cases s with
          | nil => simp
          | cons d s =>
              dsimp only
              refine iff_of_false (by simp) ?_
              rintro ⟨htext, hscan⟩
              obtain ⟨rfl, -⟩ := List.cons.inj htext
              rw [scan_cons, hstep] at hscan
              cases hscan
      | some next =>
          cases s with
          | nil =>
              refine iff_of_false (by simp) ?_
              rintro ⟨htext, hscan⟩
              obtain ⟨rfl, -⟩ := List.cons.inj htext
              rw [step_eq_none_iff.mpr ⟨Option.some.inj hscan, rfl⟩] at hstep
              cases hstep
          | cons d s =>
              simp only [Option.map_eq_some_iff, Prod.exists, Prod.mk.injEq, List.cons.injEq, List.cons_append]
              constructor
              · rintro ⟨value, after, hread, ⟨rfl, rfl⟩, rfl⟩
                obtain ⟨rfl, hscan⟩ := ih.mp hread
                exact ⟨⟨rfl, rfl⟩, by rw [scan_cons, hstep]; exact hscan⟩
              · rintro ⟨⟨rfl, rfl⟩, hscan⟩
                rw [scan_cons, hstep] at hscan
                exact ⟨s, rest, ih.mpr ⟨rfl, hscan⟩, ⟨rfl, rfl⟩, rfl⟩

theorem readFields_cons (opening : List α) (openings : List (List α)) (t : List α) :
    readFields quote esc (opening :: openings) (opening ++ t)
      = (read quote esc false t).bind fun field =>
          (readFields quote esc openings field.2).map fun fields => (field.1 :: fields.1, fields.2) := by
  rw [readFields, if_pos (List.prefix_append _ _), List.drop_left]
  cases read quote esc false t with
  | none => rfl
  | some field => cases h : readFields quote esc openings field.2 <;> simp [h]

/-- **The fields of an assembled text are read back** exactly if each of them is closed. -/
theorem readFields_assemble_iff {fields : List (List α × List α)} {closing : List α} :
    readFields quote esc (fields.map Prod.fst) (assemble quote fields closing) = some (fields.map Prod.snd, closing) ↔
      ∀ value ∈ fields.map Prod.snd, Closed quote esc value := by
  induction fields with
  | nil => simp [readFields, assemble]
  | cons field fields ih =>
      obtain ⟨opening, value⟩ := field
      rw [List.map_cons, List.map_cons, List.forall_mem_cons, ← ih, assemble, readFields_cons]
      constructor
      · intro h
        obtain ⟨⟨value', rest⟩, hread, h⟩ := Option.bind_eq_some_iff.mp h
        obtain ⟨⟨values, after⟩, hrest, h⟩ := Option.map_eq_some_iff.mp h
        obtain ⟨hvalues, rfl⟩ := Prod.mk.inj h
        obtain ⟨rfl, rfl⟩ := List.cons.inj hvalues
        -- the text read is the one written, so what is left is too
        obtain ⟨htext, hclosed⟩ := read_eq_some_iff.mp hread
        obtain rfl := (List.cons.inj (List.append_cancel_left htext)).2
        exact ⟨hclosed, hrest⟩
      · rintro ⟨hclosed, hfields⟩
        rw [read_eq_some_iff.mpr ⟨rfl, hclosed⟩, Option.bind_some, hfields]
        rfl

end Quoted
