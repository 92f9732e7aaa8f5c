import Mathlib.Order.Lattice
import Mathlib.Order.Monotone.Defs
import Mathlib.Data.List.Basic
import Mathlib.Data.List.Induction

/-!
# `Library.Expiry` — a queue that drops from its front what is too old for its last entry

A queue over keys that do not decrease, such as time stamps: a push drops the front entries that are below a cutoff
which depends on the key of the entry pushed. What the queue then holds is what a filter of everything ever pushed
leaves (`foldl_push`), so a question that only asks about entries above a later cutoff cannot tell (`recent_recent`).
A search for the last entry up to a key can: the entry it wants may have been dropped (`asOf_filter_iff`).
-/

namespace Expiry

/-! ## Prefixes of a list that is cut by a predicate -/

section Cut

variable {α : Type*} {p : α → Bool} {xs : List α}

/-- When whatever comes before an element that passes passes too, the loop to the first that fails sees all. -/
theorem takeWhile_eq_filter (h : xs.Pairwise fun a b => p b → p a) : xs.takeWhile p = xs.filter p := by
  induction xs with
  | nil => rfl
  | cons x xs ih =>
      obtain ⟨hx, hxs⟩ := List.pairwise_cons.mp h
      by_cases hp : p x
      · rw [List.takeWhile_cons_of_pos hp, List.filter_cons_of_pos hp, ih hxs]
      · have hnone : ∀ y ∈ xs, ¬ p y := fun y hy hpy => hp (hx y hy hpy)
        rw [List.takeWhile_cons_of_neg hp, List.filter_cons_of_neg hp, List.filter_eq_nil_iff.mpr hnone]

theorem dropWhile_eq_filter (h : xs.Pairwise fun a b => p b → p a) : xs.dropWhile p = xs.filter (fun a => !p a) := by
  induction xs with
  | nil => rfl
  | cons x xs ih =>
      obtain ⟨hx, hxs⟩ := List.pairwise_cons.mp h
      by_cases hp : p x
      · rw [List.dropWhile_cons_of_pos hp, List.filter_cons_of_neg (by simpa using hp), ih hxs]
      · have hall : ∀ y ∈ xs, (!p y) = true := fun y hy => by simpa using fun hpy => hp (hx y hy hpy)
        rw [List.dropWhile_cons_of_neg hp, List.filter_cons_of_pos (by simpa using hp),
          List.filter_eq_self.mpr hall]

end Cut

/-! ## The queue -/

variable {α T : Type*} [LinearOrder T] (key : α → T) (cutoff : T → T)

/-- The keys do not decrease. -/
def Ordered (xs : List α) : Prop := xs.Pairwise fun a b => key a ≤ key b

/-- The entries not below the cutoff of the last one. -/
def recent (xs : List α) : List α := xs.filter fun a => ∀ last ∈ xs.getLast?, cutoff (key last) ≤ key a

def push (xs : List α) (a : α) : List α := (xs ++ [a]).dropWhile fun x => key x < cutoff (key a)

/-- The last entry with a key up to the target. -/
def asOf (target : T) (xs : List α) : Option α := xs.reverse.find? fun a => key a ≤ target

variable {key cutoff}

@[simp] theorem recent_nil : recent key cutoff [] = [] := rfl

@[simp] theorem recent_concat (xs : List α) (a : α) :
    recent key cutoff (xs ++ [a]) = (xs ++ [a]).filter fun x => cutoff (key a) ≤ key x := by
  simp [recent]

theorem Ordered.le_last {xs : List α} {a : α} (h : Ordered key (xs ++ [a])) : ∀ x ∈ xs ++ [a], key x ≤ key a := by
  intro x hx
  rcases List.mem_append.mp hx with hx | hx
  · exact (List.pairwise_append.mp h).2.2 x hx a (by simp)
  · rw [List.mem_singleton.mp hx]

/-- A push onto an ordered queue is a filter. -/
theorem push_eq_filter {xs : List α} {a : α} (h : Ordered key (xs ++ [a])) :
    push key cutoff xs a = (xs ++ [a]).filter fun x => cutoff (key a) ≤ key x := by
  have hcut : (xs ++ [a]).Pairwise fun x y => decide (key y < cutoff (key a)) → decide (key x < cutoff (key a)) := by
    apply List.Pairwise.imp _ h
    intro x y hxy hy
    exact decide_eq_true (hxy.trans_lt (of_decide_eq_true hy))
  unfold push
  rw [dropWhile_eq_filter hcut]
  apply List.filter_congr
  intro x _
  simp [← not_lt]

/-- **What the queue holds after any pushes is what is recent among all that was pushed.** -/
theorem foldl_push (hcutoff : Monotone cutoff) {xs : List α} (h : Ordered key xs) :
    xs.foldl (push key cutoff) [] = recent key cutoff xs := by
  induction xs using List.reverseRecOn with
  | nil => rfl
  | append_singleton xs a ih =>
      have hxs : Ordered key xs := (List.pairwise_append.mp h).1
      -- what an earlier push dropped is below the later cutoff too
      have hsub : Ordered key (recent key cutoff xs ++ [a]) :=
        List.Pairwise.sublist ((List.filter_sublist).append (List.Sublist.refl [a])) h
      rw [List.foldl_append, List.foldl_cons, List.foldl_nil, ih hxs, push_eq_filter hsub, recent_concat,
        List.filter_append, List.filter_append, recent, List.filter_filter]
      congr 1
      apply List.filter_congr
      intro x hx
      rw [Bool.and_eq_left_iff_imp]
      intro hkeep
      rw [decide_eq_true_eq] at hkeep ⊢
      intro last hlast
      have hle : key last ≤ key a := h.le_last last (List.mem_append_left _ (List.mem_of_getLast? hlast))
      exact (hcutoff hle).trans hkeep

/-- **A question about a shorter past has the same answer on what is recent.** -/
theorem recent_recent {cutoff' : T → T} (hle : ∀ t, cutoff t ≤ cutoff' t) {xs : List α} (h : Ordered key xs) :
    recent key cutoff' (recent key cutoff xs) = recent key cutoff' xs := by
  obtain rfl | ⟨xs, a, rfl⟩ := xs.eq_nil_or_concat'
  · rfl
  rw [recent_concat, recent_concat]
  by_cases hlast : cutoff (key a) ≤ key a
  · -- the last entry is still there, so the later cutoff is the same
    have hsplit : (xs ++ [a]).filter (fun x => cutoff (key a) ≤ key x)
        = xs.filter (fun x => cutoff (key a) ≤ key x) ++ [a] := by
      rw [List.filter_append, List.filter_cons_of_pos (by simpa using hlast), List.filter_nil]
    rw [hsplit, recent_concat, ← hsplit, List.filter_filter]
    apply List.filter_congr
    intro x _
    rw [Bool.and_eq_left_iff_imp]
    intro hkeep
    rw [decide_eq_true_eq] at hkeep ⊢
    exact (hle (key a)).trans hkeep
  · -- nothing is left, and a later cutoff leaves nothing either
    have hnone : ∀ t, cutoff (key a) ≤ t → ∀ x ∈ xs ++ [a], ¬ (decide (t ≤ key x) = true) := by
      intro t ht x hx hkeep
      exact hlast (ht.trans ((of_decide_eq_true hkeep).trans (h.le_last x hx)))
    rw [List.filter_eq_nil_iff.mpr (hnone _ le_rfl), List.filter_eq_nil_iff.mpr (hnone _ (hle (key a))), recent_nil]

/-! ## The search -/

theorem asOf_eq_some_iff {target : T} {xs : List α} {a : α} :
    asOf key target xs = some a ↔
      key a ≤ target ∧ ∃ before after, xs = before ++ a :: after ∧ ∀ b ∈ after, target < key b := by
  unfold asOf
  rw [List.find?_eq_some_iff_append]
  simp only [decide_eq_true_eq, Bool.not_eq_true', decide_eq_false_iff_not, not_le]
  apply and_congr_right
  intro _
  constructor
  · rintro ⟨after, before, hxs, hafter⟩
    refine ⟨before.reverse, after.reverse, ?_, by simpa using hafter⟩
    have hxs' := congrArg List.reverse hxs
    simpa using hxs'
  · rintro ⟨before, after, rfl, hafter⟩
    exact ⟨after.reverse, before.reverse, by simp, by simpa using hafter⟩

theorem asOf_eq_none_iff {target : T} {xs : List α} : asOf key target xs = none ↔ ∀ a ∈ xs, target < key a := by
  simp [asOf]

/-- **A search up to a target above the cutoff sees no difference** exactly if, once anything is below the cutoff,
    something lies between the cutoff and the target. -/
theorem asOf_filter_iff {low target : T} (hle : low ≤ target) {xs : List α} (h : Ordered key xs) :
    asOf key target (xs.filter fun a => low ≤ key a) = asOf key target xs ↔
      ((∃ a ∈ xs, key a < low) → ∃ a ∈ xs, low ≤ key a ∧ key a ≤ target) := by
  constructor
  · rintro heq ⟨old, hold, hlow⟩
    cases hfound : asOf key target xs with
    | none => exact absurd (asOf_eq_none_iff.mp hfound old hold) (not_lt.mpr ((le_of_lt hlow).trans hle))
    | some a =>
        rw [hfound] at heq
        obtain ⟨htarget, before, after, hsplit, _⟩ := asOf_eq_some_iff.mp heq
        have hmem : a ∈ xs.filter fun a => low ≤ key a := by simp [hsplit]
        obtain ⟨ha, hkept⟩ := List.mem_filter.mp hmem
        exact ⟨a, ha, of_decide_eq_true hkept, htarget⟩
  · intro hcond
    cases hfound : asOf key target xs with
    | none =>
        rw [asOf_eq_none_iff] at hfound ⊢
        exact fun a ha => hfound a (List.mem_filter.mp ha).1
    | some a =>
        obtain ⟨htarget, before, after, rfl, hafter⟩ := asOf_eq_some_iff.mp hfound
        -- the last one up to the target is in the window, for what is in the window comes no later
        have hlow : low ≤ key a := by
          by_contra hold
          obtain ⟨b, hb, hblow, hbtarget⟩ := hcond ⟨a, by simp, not_le.mp hold⟩
          obtain ⟨_, htail, hcross⟩ := List.pairwise_append.mp h
          rcases List.mem_append.mp hb with hb | hb
          · exact hold (hblow.trans (hcross b hb a List.mem_cons_self))
          · rcases List.mem_cons.mp hb with rfl | hb
            · exact hold hblow
            · exact absurd (hafter b hb) (not_lt.mpr hbtarget)
        rw [asOf_eq_some_iff]
        refine ⟨htarget, before.filter (fun a => low ≤ key a), after.filter (fun a => low ≤ key a), ?_, ?_⟩
        · rw [List.filter_append, List.filter_cons_of_pos (by simpa using hlow)]
        · exact fun b hb => hafter b (List.mem_filter.mp hb).1

end Expiry
