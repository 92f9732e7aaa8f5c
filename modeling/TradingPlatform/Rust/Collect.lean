import Mathlib.Data.List.Basic

/-!
# `Rust.Collect` — lists collected from steps that may fail
-/

namespace TradingPlatform
namespace Rust

variable {α β : Type*} {f : α → Option β} {g : α → β} {xs : List α} {ys : List β}

theorem length_mapM (h : xs.mapM f = some ys) : ys.length = xs.length := by
  induction xs generalizing ys with
  | nil =>
      cases h
      rfl
  | cons x xs ih =>
      simp only [List.mapM_cons, Option.bind_eq_bind, Option.bind_eq_some_iff] at h
      obtain ⟨y, _, ys', hrest, hys⟩ := h
      cases hys
      rw [List.length_cons, List.length_cons, ih hrest]

/-- What succeeds on every element succeeds on the list. -/
theorem mapM_eq_map (h : ∀ x ∈ xs, f x = some (g x)) : xs.mapM f = some (xs.map g) := by
  induction xs with
  | nil => rfl
  | cons x xs ih =>
      rw [List.mapM_cons, h x List.mem_cons_self, ih fun x' hx' => h x' (List.mem_cons_of_mem _ hx')]
      rfl

/-- One step more. -/
theorem foldlM_concat {σ : Type} (step : σ → α → Option σ) (s : σ) (xs : List α) (x : α) :
    (xs ++ [x]).foldlM step s = (xs.foldlM step s).bind fun s' => step s' x := by
  have hsingle : (fun s' => [x].foldlM step s') = fun s' => step s' x := by
    funext s'
    rw [List.foldlM_cons]
    exact bind_pure _
  rw [List.foldlM_append, hsingle]
  rfl

end Rust
end TradingPlatform
