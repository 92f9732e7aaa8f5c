import Mathlib.Data.List.Basic

/-!
# `Library.Wire` — readers of a buffer

A reader takes what it needs from the front of a buffer and leaves the rest, or fails. `Reads r bytes a` says that
it takes exactly `bytes` and gives `a`, whatever follows; readers in sequence take what their parts take
(`Reads.bind`), so an encoding is read back part by part. `Needs` speaks of buffers that may end too early: a reader
needs `n` bytes of a buffer if it takes them when they are there and fails when they are not.
-/

namespace Wire

variable {β ε α γ : Type}

abbrev Reader (β ε α : Type) := StateT (List β) (Except ε) α

/-- The next `n` elements. -/
def take (failure : ε) (n : Nat) : Reader β ε (List β) := fun data =>
  if n ≤ data.length then .ok (data.take n, data.drop n) else .error failure

/-- The next `n` items. -/
def many (r : Reader β ε α) : Nat → Reader β ε (List α)
  | 0     => pure []
  | n + 1 => do
    let a ← r
    let as ← many r n
    return a :: as

/-- The reader takes exactly these bytes, whatever follows them. -/
def Reads (r : Reader β ε α) (bytes : List β) (a : α) : Prop := ∀ rest, r (bytes ++ rest) = .ok (a, rest)

theorem Reads.pure (a : α) : Reads (β := β) (ε := ε) (Pure.pure a) [] a := fun _ => rfl

/-- **One reader after the other** takes what both take. -/
theorem Reads.bind {r : Reader β ε α} {f : α → Reader β ε γ} {bytes bytes' : List β} {a : α} {c : γ}
    (h : Reads r bytes a) (h' : Reads (f a) bytes' c) : Reads (r >>= f) (bytes ++ bytes') c := by
  intro rest
  show (r (bytes ++ bytes' ++ rest)).bind _ = _
  rw [List.append_assoc, h]
  exact h' rest

/-- What a reader gives may still be changed. -/
theorem Reads.map {r : Reader β ε α} {bytes : List β} {a : α} (h : Reads r bytes a) (g : α → γ) :
    Reads (g <$> r) bytes (g a) := by
  intro rest
  show (r (bytes ++ rest)).map _ = _
  rw [h]
  rfl

/-- A reader whose result is returned as part of another. -/
theorem Reads.bind_pure {r : Reader β ε α} {bytes : List β} {a : α} (h : Reads r bytes a) (g : α → γ) :
    Reads (r >>= fun a => Pure.pure (g a)) bytes (g a) := by
  have hread := h.bind (f := fun a => Pure.pure (g a)) (Reads.pure (g a))
  rw [List.append_nil] at hread
  exact hread

theorem reads_take {failure : ε} {bytes : List β} {n : Nat} (h : bytes.length = n) :
    Reads (take failure n) bytes bytes := by
  intro rest
  have hle : n ≤ (bytes ++ rest).length := by
    rw [List.length_append]
    omega
  unfold take
  rw [if_pos hle, List.take_left' h, List.drop_left' h]

/-- **Items in sequence** are read one by one. -/
theorem Reads.many {r : Reader β ε α} {encode : α → List β} (h : ∀ a, Reads r (encode a) a) (as : List α) :
    Reads (Wire.many r as.length) (as.flatMap encode) as := by
  induction as with
  | nil => exact Reads.pure []
  | cons a as ih => exact (h a).bind (ih.bind_pure (a :: ·))

/-! ## Buffers that end too early -/

variable {failure : ε} {r : Reader β ε α} {f : α → Reader β ε γ} {data : List β} {n m : Nat}

/-- With `n` elements in the buffer the reader takes them, with fewer it fails. -/
def Needs (failure : ε) (r : Reader β ε α) (data : List β) (n : Nat) : Prop :=
  (n ≤ data.length → ∃ a, r data = .ok (a, data.drop n)) ∧ (data.length < n → r data = .error failure)

/-- It fails for that reason only. -/
theorem Needs.error_iff (h : Needs failure r data n) : r data = .error failure ↔ data.length < n := by
  constructor
  · intro herror
    by_contra hle
    obtain ⟨a, ha⟩ := h.1 (Nat.le_of_not_lt hle)
    rw [ha] at herror
    cases herror
  · exact h.2

theorem Needs.length_le {result : α × List β} (h : Needs failure r data n) (hr : r data = .ok result) :
    n ≤ data.length := by
  by_contra hlt
  rw [h.2 (Nat.lt_of_not_le hlt)] at hr
  cases hr

theorem needs_take (failure : ε) (n : Nat) (data : List β) : Needs failure (take failure n) data n := by
  unfold take
  refine ⟨fun hle => ⟨data.take n, if_pos hle⟩, fun hlt => if_neg (Nat.not_le.mpr hlt)⟩

theorem needs_pure (failure : ε) (a : α) (data : List β) : Needs failure (Pure.pure a : Reader β ε α) data 0 :=
  ⟨fun _ => ⟨a, rfl⟩, fun hlt => absurd hlt (Nat.not_lt_zero _)⟩

theorem bind_ok {a : α} {rest : List β} (h : r data = .ok (a, rest)) : (r >>= f) data = f a rest := by
  show (r data).bind _ = _
  rw [h]
  rfl

theorem bind_error {e : ε} (h : r data = .error e) : (r >>= f) data = .error e := by
  show (r data).bind _ = _
  rw [h]
  rfl

theorem map_ok {a : α} {rest : List β} (h : r data = .ok (a, rest)) (g : α → γ) :
    (g <$> r) data = .ok (g a, rest) := by
  show (r data).map _ = _
  rw [h]
  rfl

/-- **One reader after the other** needs what both need; how much the second one needs may depend on what the first
    one gave. -/
theorem Needs.bind (h : Needs failure r data n)
    (hf : ∀ a, r data = .ok (a, data.drop n) → Needs failure (f a) (data.drop n) m) :
    Needs failure (r >>= f) data (n + m) := by
  constructor
  · intro hle
    obtain ⟨a, ha⟩ := h.1 (by omega)
    obtain ⟨c, hc⟩ := (hf a ha).1 (by rw [List.length_drop]; omega)
    rw [bind_ok ha, hc, List.drop_drop]
    exact ⟨c, rfl⟩
  · intro hlt
    rcases Nat.lt_or_ge data.length n with hshort | hlong
    · exact bind_error (h.2 hshort)
    · obtain ⟨a, ha⟩ := h.1 hlong
      rw [bind_ok ha]
      exact (hf a ha).2 (by rw [List.length_drop]; omega)

theorem Needs.map (h : Needs failure r data n) (g : α → γ) : Needs failure (g <$> r) data n := by
  constructor
  · intro hle
    obtain ⟨a, ha⟩ := h.1 hle
    exact ⟨g a, map_ok ha g⟩
  · intro hlt
    show (r data).map _ = _
    rw [h.2 hlt]
    rfl

theorem Needs.bind_pure (h : Needs failure r data n) (g : α → γ) :
    Needs failure (r >>= fun a => Pure.pure (g a)) data n :=
  h.bind fun a _ => needs_pure failure (g a) _

/-- **Items of one size.** -/
theorem needs_many (h : ∀ data, Needs failure r data n) (k : Nat) (data : List β) :
    Needs failure (many r k) data (n * k) := by
  induction k generalizing data with
  | zero => exact needs_pure failure [] data
  | succ k ih =>
      rw [Nat.mul_succ, Nat.add_comm (n * k)]
      exact (h data).bind fun a _ => (ih _).bind_pure (a :: ·)

/-- What follows may fail for other reasons, too. -/
theorem Needs.bind_error_iff (h : Needs failure r data n)
    (hf : ∀ a, r data = .ok (a, data.drop n) →
      (f a (data.drop n) = .error failure ↔ (data.drop n).length < m)) :
    (r >>= f) data = .error failure ↔ data.length < n + m := by
  rcases Nat.lt_or_ge data.length n with hshort | hlong
  · exact iff_of_true (bind_error (h.2 hshort)) (by omega)
  · obtain ⟨a, ha⟩ := h.1 hlong
    rw [bind_ok ha, hf a ha, List.length_drop]
    omega

theorem map_error_iff {e : ε} (g : α → γ) : (g <$> r) data = .error e ↔ r data = .error e := by
  show (r data).map _ = _ ↔ _
  cases r data with
  | ok result => exact ⟨nofun, nofun⟩
  | error e' =>
      show Except.error e' = .error e ↔ _
      rw [Except.error.injEq, Except.error.injEq]

/-- Returning the result as part of another cannot fail. -/
theorem bind_pure_error_iff {e : ε} (g : α → γ) :
    (r >>= fun a => Pure.pure (g a)) data = .error e ↔ r data = .error e := by
  cases hr : r data with
  | ok result =>
      rw [bind_ok hr]
      exact ⟨nofun, nofun⟩
  | error e' =>
      rw [bind_error hr, Except.error.injEq, Except.error.injEq]

end Wire
