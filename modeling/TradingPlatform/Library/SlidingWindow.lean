import Mathlib.Data.List.Basic
import Mathlib.Order.Lattice

/-!
# `Library.SlidingWindow` — a limiter that keeps a log of times and prunes it when it is asked

A limiter admits while fewer than `limit` entries of its log are younger than `width`. Two facts make it a limit on
every window, not only on those that end at a question: an entry that joins the log when fewer than `limit` are
recent leaves no window with more (`window_concat_le`), and a log of exactly `limit` recent entries has room again
from the moment at which its oldest one expires (`length_recent_lt_iff`).
-/

namespace SlidingWindow

variable {width limit now later start : Nat} {log : List Nat}

/-- The entries younger than `width`. -/
def recent (width now : Nat) (log : List Nat) : List Nat := log.filter fun t => now - t < width

/-- The entries in the half-open interval of length `width` from `start`. -/
def window (width start : Nat) (log : List Nat) : List Nat := log.filter fun t => start ≤ t ∧ t < start + width

/-- The log is in order and ends by `now`. -/
def Logged (now : Nat) (log : List Nat) : Prop := log.Pairwise (· ≤ ·) ∧ ∀ t ∈ log, t ≤ now

theorem recent_sublist : (recent width now log).Sublist log := List.filter_sublist

theorem mem_recent {t : Nat} : t ∈ recent width now log ↔ t ∈ log ∧ now - t < width := by
  simp [recent]

@[simp] theorem recent_concat (t : Nat) :
    recent width now (log ++ [t]) = recent width now log ++ recent width now [t] := List.filter_append ..

/-- Pruning earlier first makes no difference. -/
theorem recent_recent (h : now ≤ later) : recent width later (recent width now log) = recent width later log := by
  unfold recent
  rw [List.filter_filter]
  apply List.filter_congr
  intro t _
  rw [Bool.and_eq_left_iff_imp, decide_eq_true_eq, decide_eq_true_eq]
  omega

/-! ## Logs -/

theorem Logged.nil : Logged now [] := ⟨List.Pairwise.nil, by simp⟩

theorem Logged.of_le (h : Logged now log) (hle : now ≤ later) : Logged later log :=
  ⟨h.1, fun t ht => (h.2 t ht).trans hle⟩

theorem Logged.sublist {log' : List Nat} (h : Logged now log) (hsub : log'.Sublist log) : Logged now log' :=
  ⟨h.1.sublist hsub, fun t ht => h.2 t (hsub.subset ht)⟩

theorem Logged.recent (h : Logged now log) : Logged now (recent width now log) := h.sublist recent_sublist

theorem Logged.concat (h : Logged now log) (hle : now ≤ later) : Logged later (log ++ [later]) := by
  constructor
  · rw [List.pairwise_append]
    refine ⟨h.1, List.pairwise_singleton _ _, ?_⟩
    intro t ht t' ht'
    rw [List.mem_singleton.mp ht']
    exact (h.2 t ht).trans hle
  · intro t ht
    rcases List.mem_append.mp ht with ht | ht
    · exact (h.2 t ht).trans hle
    · exact le_of_eq (List.mem_singleton.mp ht)

/-! ## The bound -/

/-- **An entry admitted with room among the recent ones leaves room in every window.** -/
theorem window_concat_le (hroom : (recent width now log).length < limit)
    (hwindows : ∀ start, (window width start log).length ≤ limit) (start : Nat) :
    (window width start (log ++ [now])).length ≤ limit := by
  by_cases hin : start ≤ now ∧ now < start + width
  · -- what the window holds of the log is recent, for the window reaches up to the new entry
    have hsub : ∀ t ∈ log, decide (start ≤ t ∧ t < start + width) = true → decide (now - t < width) = true := by
      intro t _ ht
      rw [decide_eq_true_eq] at ht ⊢
      omega
    have hle : (window width start log).length ≤ (recent width now log).length := by
      unfold window recent
      rw [← List.countP_eq_length_filter, ← List.countP_eq_length_filter]
      exact List.countP_mono_left hsub
    have hnew : window width start (log ++ [now]) = window width start log ++ [now] := by
      unfold window
      rw [List.filter_append, List.filter_cons_of_pos (by simpa using hin), List.filter_nil]
    rw [hnew, List.length_append, List.length_singleton]
    omega
  · have hold : window width start (log ++ [now]) = window width start log := by
      unfold window
      rw [List.filter_append, List.filter_cons_of_neg (by simpa using hin), List.filter_nil, List.append_nil]
    rw [hold]
    exact hwindows start

/-! ## The wait -/

theorem recent_eq_self {oldest : Nat} (h : Logged now (oldest :: log)) (hyoung : later - oldest < width) :
    recent width later (oldest :: log) = oldest :: log := by
  unfold recent
  rw [List.filter_eq_self]
  intro t ht
  rw [decide_eq_true_eq]
  rcases List.mem_cons.mp ht with rfl | ht
  · exact hyoung
  · have hle : oldest ≤ t := (List.pairwise_cons.mp h.1).1 t ht
    omega

/-- **A full log has room again from the moment at which its oldest entry expires.** -/
theorem length_recent_lt_iff {oldest : Nat} (h : Logged now (oldest :: log))
    (hfull : (oldest :: log).length = limit) :
    (recent width later (oldest :: log)).length < limit ↔ width ≤ later - oldest := by
  constructor
  · intro hroom
    by_contra hyoung
    rw [recent_eq_self h (not_le.mp hyoung)] at hroom
    omega
  · intro hexpired
    have hdrop : recent width later (oldest :: log) = recent width later log :=
      List.filter_cons_of_neg (by simpa using hexpired)
    have hle : (recent width later log).length ≤ log.length := recent_sublist.length_le
    rw [hdrop, ← hfull, List.length_cons]
    omega

end SlidingWindow
