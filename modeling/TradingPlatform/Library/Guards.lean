import TradingPlatform.Library.Machine

/-!
# `Library.Guards` — calls of one task that take locks which are not reentrant

A task that awaits a lock whose guard it holds waits forever: `withGuard` is `none` then, and so is every call on top
of it. A guard lives until the end of the body it scopes over. In a sequence of calls all of them return exactly if
each meets, where it is made, the condition under which it returns (`returns_iff`).
-/

namespace Guards

open Machine

variable {κ α : Type*} [DecidableEq κ]

/-- Await a lock and run the body with its guard among those held. -/
def withGuard (held : List κ) (lock : κ) (body : List κ → Option α) : Option α :=
  if lock ∈ held then none else body (lock :: held)

theorem withGuard_of_mem {held : List κ} {lock : κ} (h : lock ∈ held) (body : List κ → Option α) :
    withGuard held lock body = none := if_pos h

theorem withGuard_of_notMem {held : List κ} {lock : κ} (h : lock ∉ held) (body : List κ → Option α) :
    withGuard held lock body = body (lock :: held) := if_neg h

/-! ## Sequences of calls -/

variable {σ ι ο : Type*} (call : σ → ι → Option (σ × ο))

/-- A call that never returns leaves `none`; what the task would have called after it does not matter. -/
def callStep (s : σ) (i : ι) : σ × List (Option ο) :=
  match call s i with
  | some (s', o) => (s', [some o])
  | none         => (s, [none])

/-- Every call of the sequence returns. -/
def Returns (s : σ) (is : List ι) : Prop := ∀ o ∈ (run (callStep call) s is).2, o.isSome = true

variable {call}

theorem callStep_of_some {s s' : σ} {i : ι} {o : ο} (h : call s i = some (s', o)) :
    callStep call s i = (s', [some o]) := by
  unfold callStep
  rw [h]

theorem callStep_of_none {s : σ} {i : ι} (h : call s i = none) : callStep call s i = (s, [none]) := by
  unfold callStep
  rw [h]

theorem returns_cons {s : σ} {i : ι} {is : List ι} :
    Returns call s (i :: is) ↔ (call s i).isSome = true ∧ Returns call (callStep call s i).1 is := by
  unfold Returns
  rw [run_cons, List.forall_mem_append]
  apply and_congr_left
  intro _
  cases h : call s i with
  | none =>
      rw [callStep_of_none h]
      simp
  | some next =>
      have hnext : call s i = some (next.1, next.2) := h
      rw [callStep_of_some hnext]
      simp

/-- **All calls return** exactly if each is made in a state in which it does. -/
theorem returns_iff {guard : σ → ι → Prop} (h : ∀ s i, (call s i).isSome = true ↔ guard s i) {s : σ} {is : List ι} :
    Returns call s is ↔ Guarded (callStep call) guard s is := by
  induction is generalizing s with
  | nil => exact iff_of_true nofun trivial
  | cons i is ih => rw [returns_cons, h, ih]; rfl

/-- Calls that leave the state as it is, if they return. -/
theorem returns_iff_forall {guard : ι → Prop} {s : σ} (h : ∀ i, (call s i).isSome = true ↔ guard i)
    (hkept : ∀ i next, call s i = some next → next.1 = s) {is : List ι} :
    Returns call s is ↔ ∀ i ∈ is, guard i := by
  induction is with
  | nil => exact iff_of_true nofun nofun
  | cons i is ih =>
      have hstep : (callStep call s i).1 = s := by
        cases hi : call s i with
        | none => rw [callStep_of_none hi]
        | some next =>
            have hnext : call s i = some (next.1, next.2) := hi
            rw [callStep_of_some hnext]
            exact hkept i next hi
      rw [returns_cons, h, hstep, ih, List.forall_mem_cons]

theorem run_callStep_of_kept {answer : ι → ο} {s : σ} {is : List ι}
    (h : ∀ i ∈ is, call s i = some (s, answer i)) :
    run (callStep call) s is = (s, is.map fun i => some (answer i)) := by
  induction is with
  | nil => rfl
  | cons i is ih =>
      rw [run_cons, callStep_of_some (h i List.mem_cons_self), ih fun j hj => h j (List.mem_cons_of_mem _ hj)]
      rfl

end Guards
