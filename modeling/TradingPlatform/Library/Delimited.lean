import Mathlib.Data.List.Basic

/-!
# `Library.Delimited` — fields that a separator ends, and two lists taken in turn

Fields without the separator are determined by their text (`terminated_inj`). Two lists taken in turn are determined
by the result if their lengths are known (`interleave_inj`); without these they are not.
-/

namespace Delimited

variable {α β : Type*}

/-- The fields, each with the separator behind it. -/
def terminated (sep : α) (fields : List (List α)) : List α := fields.flatMap fun field => field ++ [sep]

/-- One element of each in turn, then what is left of the longer list. -/
def interleave : List α → List α → List α
  | [], ys           => ys
  | x :: xs, []      => x :: xs
  | x :: xs, y :: ys => x :: y :: interleave xs ys

/-! ## Fields -/

section Fields

variable {sep : α} {fields fields' : List (List α)}

@[simp] theorem terminated_nil (sep : α) : terminated sep [] = [] := rfl

@[simp] theorem terminated_cons (sep : α) (field : List α) (fields : List (List α)) :
    terminated sep (field :: fields) = field ++ sep :: terminated sep fields := by
  unfold terminated
  rw [List.flatMap_cons, List.append_assoc, List.singleton_append]

theorem terminated_append (sep : α) (fields fields' : List (List α)) :
    terminated sep (fields ++ fields') = terminated sep fields ++ terminated sep fields' := List.flatMap_append

/-- Fields that come in blocks. -/
theorem terminated_flatMap (sep : α) (blocks : β → List (List α)) (bs : List β) :
    terminated sep (bs.flatMap blocks) = bs.flatMap fun b => terminated sep (blocks b) := List.flatMap_assoc

theorem terminated_ne_nil (h : fields ≠ []) : terminated sep fields ≠ [] := by
  cases fields with
  | nil => exact absurd rfl h
  | cons field fields =>
      rw [terminated_cons]
      exact List.append_ne_nil_of_right_ne_nil _ (List.cons_ne_nil _ _)

/-- The separator is the last of the text. -/
theorem getLast?_terminated (h : fields ≠ []) : (terminated sep fields).getLast? = some sep := by
  induction fields with
  | nil => exact absurd rfl h
  | cons field fields ih =>
      rw [terminated_cons, List.getLast?_append, List.getLast?_cons]
      cases fields with
      | nil => rfl
      | cons next fields =>
          rw [ih (List.cons_ne_nil _ _)]
          rfl

/-- Two texts are cut at their first separator. -/
theorem append_sep_inj {s s' t t' : List α} (h : sep ∉ s) (h' : sep ∉ s') (heq : s ++ sep :: t = s' ++ sep :: t') :
    s = s' ∧ t = t' := by
  rcases List.append_eq_append_iff.mp heq with ⟨mid, hs, ht⟩ | ⟨mid, hs, ht⟩
  · cases mid with
    | nil => exact ⟨(hs.trans (List.append_nil s)).symm, (List.cons.inj ht).2⟩
    | cons c mid =>
        have hmem : sep ∈ s' := by rw [hs, (List.cons.inj ht).1]; simp
        exact absurd hmem h'
  · cases mid with
    | nil => exact ⟨hs.trans (List.append_nil s'), (List.cons.inj ht).2.symm⟩
    | cons c mid =>
        have hmem : sep ∈ s := by rw [hs, (List.cons.inj ht).1]; simp
        exact absurd hmem h

/-- **The text determines the fields.** -/
theorem terminated_inj (h : ∀ field ∈ fields, sep ∉ field) (h' : ∀ field ∈ fields', sep ∉ field) :
    terminated sep fields = terminated sep fields' ↔ fields = fields' := by
  refine ⟨fun heq => ?_, fun heq => by rw [heq]⟩
  induction fields generalizing fields' with
  | nil =>
      cases fields' with
      | nil => rfl
      | cons field' fields' => exact absurd heq.symm (terminated_ne_nil (List.cons_ne_nil _ _))
  | cons field fields ih =>
      cases fields' with
      | nil => exact absurd heq (terminated_ne_nil (List.cons_ne_nil _ _))
      | cons field' fields' =>
          obtain ⟨hfield, hfields⟩ := List.forall_mem_cons.mp h
          obtain ⟨hfield', hfields'⟩ := List.forall_mem_cons.mp h'
          rw [terminated_cons, terminated_cons] at heq
          obtain ⟨hhead, htail⟩ := append_sep_inj hfield hfield' heq
          rw [hhead, ih hfields hfields' htail]

/-- The separator behind the last field may be missing: texts of equally many fields still agree with it. -/
theorem dropLast_terminated_inj (hlength : fields.length = fields'.length) (h : ∀ field ∈ fields, sep ∉ field)
    (h' : ∀ field ∈ fields', sep ∉ field) :
    (terminated sep fields).dropLast = (terminated sep fields').dropLast ↔ fields = fields' := by
  refine ⟨fun heq => ?_, fun heq => by rw [heq]⟩
  by_cases hnil : fields = []
  · rw [hnil, List.length_nil] at hlength
    rw [hnil, List.length_eq_zero_iff.mp hlength.symm]
  · have hnil' : fields' ≠ [] := by
      rintro rfl
      exact hnil (List.length_eq_zero_iff.mp hlength)
    rw [← terminated_inj h h', ← List.dropLast_append_getLast? sep (getLast?_terminated hnil),
      ← List.dropLast_append_getLast? sep (getLast?_terminated hnil'), heq]

end Fields

/-! ## In turn -/

section Interleave

@[simp] theorem interleave_nil_right (xs : List α) : interleave xs [] = xs := by cases xs <;> rfl

theorem mem_interleave {xs ys : List α} {z : α} : z ∈ interleave xs ys ↔ z ∈ xs ∨ z ∈ ys := by
  induction xs generalizing ys with
  | nil => simp [interleave]
  | cons x xs ih =>
      cases ys with
      | nil => simp
      | cons y ys =>
          rw [interleave, List.mem_cons, List.mem_cons, ih, List.mem_cons, List.mem_cons]
          tauto

theorem length_interleave (xs ys : List α) : (interleave xs ys).length = xs.length + ys.length := by
  induction xs generalizing ys with
  | nil => exact (Nat.zero_add _).symm
  | cons x xs ih =>
      cases ys with
      | nil => rfl
      | cons y ys =>
          rw [interleave, List.length_cons, List.length_cons, ih, List.length_cons, List.length_cons]
          omega

/-- **The lists are determined**, once their lengths are. -/
theorem interleave_inj {xs xs' ys ys' : List α} (hx : xs.length = xs'.length) (hy : ys.length = ys'.length) :
    interleave xs ys = interleave xs' ys' ↔ xs = xs' ∧ ys = ys' := by
  refine ⟨fun heq => ?_, fun ⟨hxs, hys⟩ => by rw [hxs, hys]⟩
  induction xs generalizing xs' ys ys' with
  | nil =>
      obtain rfl := List.length_eq_zero_iff.mp hx.symm
      exact ⟨rfl, heq⟩
  | cons x xs ih =>
      obtain ⟨x', xs', rfl⟩ := List.exists_cons_of_length_eq_add_one hx.symm
      cases ys with
      | nil =>
          obtain rfl := List.length_eq_zero_iff.mp hy.symm
          exact ⟨heq, rfl⟩
      | cons y ys =>
          obtain ⟨y', ys', rfl⟩ := List.exists_cons_of_length_eq_add_one hy.symm
          injection heq with hhead heq
          injection heq with hhead' heq
          obtain ⟨hxs, hys⟩ := ih (Nat.succ.inj hx) (Nat.succ.inj hy) heq
          exact ⟨by rw [hhead, hxs], by rw [hhead', hys]⟩

theorem flatMap_range (f : α → List β) (xs : List α) :
    ((List.range xs.length).flatMap fun i => (xs[i]?.map f).getD []) = xs.flatMap f := by
  induction xs with
  | nil => rfl
  | cons x xs ih =>
      rw [List.length_cons, List.range_succ_eq_map, List.flatMap_cons, List.flatMap_map, List.flatMap_cons, ← ih]
      rfl

/-- **A loop over positions** that takes from each list what it has there. -/
theorem flatMap_range_max (f : α → List β) (xs ys : List α) :
    ((List.range (max xs.length ys.length)).flatMap fun i =>
      (xs[i]?.map f).getD [] ++ (ys[i]?.map f).getD []) = (interleave xs ys).flatMap f := by
  induction xs generalizing ys with
  | nil =>
      rw [List.length_nil, Nat.zero_max]
      exact flatMap_range f ys
  | cons x xs ih =>
      cases ys with
      | nil =>
          rw [List.length_nil, Nat.max_zero, interleave, ← flatMap_range f (x :: xs)]
          exact List.flatMap_congr fun i _ => List.append_nil _
      | cons y ys =>
          rw [List.length_cons, List.length_cons, Nat.succ_max_succ, List.range_succ_eq_map, List.flatMap_cons,
            List.flatMap_map, interleave, List.flatMap_cons, List.flatMap_cons, ← ih, ← List.append_assoc]
          rfl

end Interleave

end Delimited
