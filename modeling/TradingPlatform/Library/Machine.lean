import Mathlib.Data.List.Basic

/-!
# `Library.Machine` — runs of a step function that emits outputs

A machine is a function `step : σ → ι → σ × List ο`: one input is consumed, the state moves, some outputs
leave. `run` feeds it a list of inputs and concatenates what it emits.

The induction over a run is packaged once, here:
* `run_invariant` — what every step preserves holds at the end of every run;
* `Guarded.invariant` — the same when the steps preserve it only under a side condition on the state they
  start from and the input they take, and every step of this run meets it;
* `run_outputs` — what every step guarantees of its outputs holds of all outputs of the run;
* `Guarded.trace_invariant` — an invariant that ties the state to everything emitted so far.

`NonInterfering` compares two runs; `Unwinding` is the step-by-step way to compare them. `run_outputs_eq_iff`
compares a machine with one that emits once for every input. `run_balance_iff` is about a machine that keeps a
ledger. A step that may fail has `runM` for its runs, and `runM_refines` says that none of them fails when every step
does what a step of a specification does.
-/

namespace Machine

variable {σ ι ο : Type*}

/-- Feed the inputs one after the other, collecting the outputs in order. -/
def run (step : σ → ι → σ × List ο) (s : σ) : List ι → σ × List ο
  | []      => (s, [])
  | i :: is => ((run step (step s i).1 is).1, (step s i).2 ++ (run step (step s i).1 is).2)

variable {step : σ → ι → σ × List ο}

@[simp] theorem run_nil (s : σ) : run step s [] = (s, []) := rfl

@[simp] theorem run_cons (s : σ) (i : ι) (is : List ι) :
    run step s (i :: is)
      = ((run step (step s i).1 is).1, (step s i).2 ++ (run step (step s i).1 is).2) := rfl

theorem run_append_state (s : σ) (xs ys : List ι) :
    (run step s (xs ++ ys)).1 = (run step (run step s xs).1 ys).1 := by
  induction xs generalizing s with
  | nil => rfl
  | cons i is ih => exact ih _

theorem run_append_outputs (s : σ) (xs ys : List ι) :
    (run step s (xs ++ ys)).2 = (run step s xs).2 ++ (run step (run step s xs).1 ys).2 := by
  induction xs generalizing s with
  | nil => rfl
  | cons i is ih => simp [ih]

/-- Two runs, one after the other. -/
theorem run_append {s s' s'' : σ} {xs ys : List ι} {os os' : List ο} (hxs : run step s xs = (s', os))
    (hys : run step s' ys = (s'', os')) : run step s (xs ++ ys) = (s'', os ++ os') := by
  apply Prod.ext
  · rw [run_append_state, hxs, hys]
  · rw [run_append_outputs, hxs, hys]

/-- Every step of the run from `s` meets the side condition. -/
def Guarded (step : σ → ι → σ × List ο) (guard : σ → ι → Prop) : σ → List ι → Prop
  | _, []      => True
  | s, i :: is => guard s i ∧ Guarded step guard (step s i).1 is

instance Guarded.decidable (step : σ → ι → σ × List ο) (guard : σ → ι → Prop)
    [∀ s i, Decidable (guard s i)] : (s : σ) → (is : List ι) → Decidable (Guarded step guard s is)
  | _, []      => isTrue trivial
  | s, i :: is => @instDecidableAnd (guard s i) _ _ (Guarded.decidable step guard (step s i).1 is)

theorem guarded_append {guard : σ → ι → Prop} {s : σ} {is js : List ι} :
    Guarded step guard s (is ++ js) ↔
      Guarded step guard s is ∧ Guarded step guard (run step s is).1 js := by
  induction is generalizing s with
  | nil => simp [Guarded]
  | cons i is ih =>
      show guard s i ∧ Guarded step guard (step s i).1 (is ++ js) ↔ _
      rw [ih, ← and_assoc]
      rfl

/-- A condition on the inputs alone guards a run from any state. -/
theorem guarded_of_forall {P : ι → Prop} {is : List ι} (h : ∀ i ∈ is, P i) (s : σ) :
    Guarded step (fun _ i => P i) s is := by
  induction is generalizing s with
  | nil => trivial
  | cons i is ih => exact ⟨h i List.mem_cons_self, ih (fun j hj => h j (List.mem_cons_of_mem _ hj)) _⟩

theorem guarded_iff_forall {P : ι → Prop} {s : σ} {is : List ι} :
    Guarded step (fun _ i => P i) s is ↔ ∀ i ∈ is, P i := by
  refine ⟨fun h => ?_, fun h => guarded_of_forall h s⟩
  induction is generalizing s with
  | nil => intro i hi; cases hi
  | cons i is ih => exact List.forall_mem_cons.mpr ⟨h.1, ih h.2⟩

/-- A guard speaks of every point of the run. -/
theorem guarded_iff_points {guard : σ → ι → Prop} {s : σ} {is : List ι} :
    Guarded step guard s is ↔ ∀ done i, done ++ [i] <+: is → guard (run step s done).1 i := by
  constructor
  · rintro h done i ⟨rest, rfl⟩
    exact (guarded_append.mp (guarded_append.mp h).1).2.1
  · intro h
    induction is generalizing s with
    | nil => trivial
    | cons i is ih =>
        refine ⟨h [] i ⟨is, rfl⟩, ih fun done j hdone => ?_⟩
        exact h (i :: done) j (List.cons_prefix_cons.mpr ⟨rfl, hdone⟩)

/-- A weaker guard holds too. -/
theorem Guarded.imp {guard guard' : σ → ι → Prop} (himp : ∀ s i, guard s i → guard' s i) {s : σ} {is : List ι}
    (h : Guarded step guard s is) : Guarded step guard' s is := by
  induction is generalizing s with
  | nil => trivial
  | cons i is ih => exact ⟨himp s i h.1, ih h.2⟩

theorem Guarded.and {guard guard' : σ → ι → Prop} {s : σ} {is : List ι} (h : Guarded step guard s is)
    (h' : Guarded step guard' s is) : Guarded step (fun s i => guard s i ∧ guard' s i) s is := by
  induction is generalizing s with
  | nil => trivial
  | cons i is ih => exact ⟨⟨h.1, h'.1⟩, ih h.2 h'.2⟩

/-- **Guarded invariance.** -/
theorem Guarded.invariant {guard : σ → ι → Prop} {Inv : σ → Prop}
    (hstep : ∀ s i, Inv s → guard s i → Inv (step s i).1) {s : σ} {is : List ι}
    (hg : Guarded step guard s is) (hs : Inv s) : Inv (run step s is).1 := by
  induction is generalizing s with
  | nil => exact hs
  | cons i is ih => exact ih hg.2 (hstep s i hs hg.1)

/-- **Invariance.** What every step preserves holds at the end of every run. -/
theorem run_invariant {Inv : σ → Prop} (hstep : ∀ s i, Inv s → Inv (step s i).1) {s : σ}
    (hs : Inv s) (is : List ι) : Inv (run step s is).1 := by
  induction is generalizing s with
  | nil => exact hs
  | cons i is ih => exact ih (hstep s i hs)

/-- What every step guarantees of its outputs, from states where `Inv` holds, holds of every output. -/
theorem run_outputs {Inv : σ → Prop} {P : ο → Prop} (hstep : ∀ s i, Inv s → Inv (step s i).1)
    (hout : ∀ s i, Inv s → ∀ o ∈ (step s i).2, P o) {s : σ} (hs : Inv s) (is : List ι) :
    ∀ o ∈ (run step s is).2, P o := by
  induction is generalizing s with
  | nil => intro o ho; cases ho
  | cons i is ih =>
      intro o ho
      rcases List.mem_append.mp ho with ho | ho
      · exact hout s i hs o ho
      · exact ih (hstep s i hs) o ho

/-- **Trace invariance.** The invariant may speak of everything emitted so far, starting from `out`. -/
theorem Guarded.trace_invariant {guard : σ → ι → Prop} {Inv : σ → List ο → Prop}
    (hstep : ∀ s out i, Inv s out → guard s i → Inv (step s i).1 (out ++ (step s i).2)) {s : σ}
    {is : List ι} (hg : Guarded step guard s is) {out : List ο} (hs : Inv s out) :
    Inv (run step s is).1 (out ++ (run step s is).2) := by
  induction is generalizing s out with
  | nil => simpa using hs
  | cons i is ih =>
      have hnext := ih hg.2 (hstep s out i hs hg.1)
      rw [List.append_assoc] at hnext
      exact hnext

/-! ## Two runs -/

/-- What leaves under `observe` depends only on the inputs under `low`: two runs from `s` over admissible inputs
    that agree there emit the same. -/
def NonInterfering (step : σ → ι → σ × List ο) (s : σ) (admissible : ι → Prop) (low : ι → Bool)
    (observe : ο → Bool) : Prop :=
  ∀ is js, (∀ i ∈ is, admissible i) → (∀ j ∈ js, admissible j) → is.filter low = js.filter low →
    (run step s is).2.filter observe = (run step s js).2.filter observe

/-- A machine that never emits anything observable interferes with nothing. -/
theorem NonInterfering.of_silent {Inv : σ → Prop} {admissible : ι → Prop} {low : ι → Bool} {observe : ο → Bool}
    (hstep : ∀ s i, Inv s → Inv (step s i).1) (hout : ∀ s i, Inv s → ∀ o ∈ (step s i).2, observe o = false)
    {s : σ} (hs : Inv s) : NonInterfering step s admissible low observe := by
  have hsilent : ∀ is, (run step s is).2.filter observe = [] := by
    intro is
    apply List.filter_eq_nil_iff.mpr
    intro o ho
    exact Bool.eq_false_iff.mp (run_outputs hstep hout hs is o ho)
  intro is js _ _ _
  rw [hsilent is, hsilent js]

/-- An *unwinding* of the runs that meet `guard`: a relation between states that a `low` input keeps when
    both sides take it, with the same observable outputs, and any other input keeps when one side takes it,
    with none. -/
structure Unwinding (step : σ → ι → σ × List ο) (guard : σ → ι → Prop) (low : ι → Bool) (observe : ο → Bool)
    (R : σ → σ → Prop) : Prop where
  symm : ∀ s t, R s t → R t s
  low_step : ∀ s t i, R s t → low i = true → guard s i → guard t i →
    R (step s i).1 (step t i).1 ∧ (step s i).2.filter observe = (step t i).2.filter observe
  high_step : ∀ s t i, R s t → low i = false → guard s i →
    R (step s i).1 t ∧ (step s i).2.filter observe = []

section Unwinding

variable {guard : σ → ι → Prop} {low : ι → Bool} {observe : ο → Bool} {R : σ → σ → Prop}

/-- Inputs that are not low leave the relation alone and emit nothing observable. -/
theorem Unwinding.run_high (h : Unwinding step guard low observe R) {s t : σ} (hR : R s t) {is : List ι}
    (hg : Guarded step guard s is) (hhigh : ∀ i ∈ is, low i = false) :
    R (run step s is).1 t ∧ (run step s is).2.filter observe = [] := by
  induction is generalizing s with
  | nil => exact ⟨hR, rfl⟩
  | cons i is ih =>
      obtain ⟨hR', hout⟩ := h.high_step s t i hR (hhigh i (List.mem_cons_self ..)) hg.1
      obtain ⟨hR'', hrest⟩ := ih hR' hg.2 fun j hj => hhigh j (List.mem_cons_of_mem _ hj)
      refine ⟨hR'', ?_⟩
      rw [run_cons, List.filter_append, hout, hrest]
      rfl

/-- **Two runs that agree on their low inputs** stay related and emit the same observable outputs. -/
theorem Unwinding.run_agree (h : Unwinding step guard low observe R) {s t : σ} (hR : R s t)
    {is js : List ι} (hs : Guarded step guard s is) (ht : Guarded step guard t js)
    (hlow : is.filter low = js.filter low) :
    R (run step s is).1 (run step t js).1 ∧
      (run step s is).2.filter observe = (run step t js).2.filter observe := by
  induction is generalizing s t js with
  | nil =>
      have hhigh : ∀ j ∈ js, low j = false := by
        intro j hj
        have hnot := List.filter_eq_nil_iff.mp hlow.symm j hj
        exact Bool.eq_false_iff.mpr hnot
      obtain ⟨hR', hout⟩ := h.run_high (h.symm s t hR) ht hhigh
      exact ⟨h.symm _ _ hR', hout.symm⟩
  | cons i is ih =>
      cases hi : low i with
      | false =>
          rw [List.filter_cons_of_neg (by simp [hi])] at hlow
          obtain ⟨hR', hout⟩ := h.high_step s t i hR hi hs.1
          obtain ⟨hR'', hrest⟩ := ih hR' hs.2 ht hlow
          refine ⟨hR'', ?_⟩
          rw [run_cons, List.filter_append, hout, hrest]
          rfl
      | true =>
          -- the other run reaches the same input after some that are not low
          rw [List.filter_cons_of_pos hi] at hlow
          obtain ⟨pre, post, rfl, hpre, _, hpost⟩ := List.filter_eq_cons_iff.mp hlow.symm
          obtain ⟨htpre, htpost⟩ := guarded_append.mp ht
          obtain ⟨hR₁, hout₁⟩ := h.run_high (h.symm s t hR) htpre fun j hj => Bool.eq_false_iff.mpr (hpre j hj)
          obtain ⟨hR₂, hout₂⟩ := h.low_step s _ i (h.symm _ _ hR₁) hi hs.1 htpost.1
          obtain ⟨hR₃, hout₃⟩ := ih hR₂ hs.2 htpost.2 hpost.symm
          rw [run_append_state, run_append_outputs, List.filter_append, hout₁, List.nil_append]
          refine ⟨hR₃, ?_⟩
          rw [run_cons, run_cons, List.filter_append, List.filter_append, hout₂, hout₃]

end Unwinding

/-! ## A machine and its specification -/

theorem run_map {κ : Type*} (f : κ → ι) (s : σ) (ks : List κ) :
    run step s (ks.map f) = run (fun s k => step s (f k)) s ks := by
  induction ks generalizing s with
  | nil => rfl
  | cons k ks ih => rw [List.map_cons, run_cons, run_cons, ih]

/-- Inputs that never emit anything. -/
theorem run_silent {is : List ι} (h : ∀ i ∈ is, ∀ s, (step s i).2 = []) (s : σ) : (run step s is).2 = [] := by
  induction is generalizing s with
  | nil => rfl
  | cons i is ih =>
      rw [run_cons, h i List.mem_cons_self, ih (fun j hj => h j (List.mem_cons_of_mem _ hj))]
      rfl

theorem length_outputs_le (h : ∀ s i, (step s i).2.length ≤ 1) (s : σ) (is : List ι) :
    (run step s is).2.length ≤ is.length := by
  induction is generalizing s with
  | nil => exact Nat.le_refl 0
  | cons i is ih =>
      rw [run_cons, List.length_append, List.length_cons]
      have := h s i
      have := ih (step s i).1
      omega

theorem length_outputs_eq (h : ∀ s i, (step s i).2.length = 1) (s : σ) (is : List ι) :
    (run step s is).2.length = is.length := by
  induction is generalizing s with
  | nil => rfl
  | cons i is ih => rw [run_cons, List.length_append, List.length_cons, h, ih, Nat.add_comm]

/-- **Exactness.** The specification emits once for every input, the machine at most once. `R` relates their states
    and what is still to come; a good input keeps it and has both emit the same, a bad one has them differ. Then
    the outputs of whole runs are the same exactly when every input is good where the specification takes it. -/
theorem run_outputs_eq_iff {τ : Type*} {spec : τ → ι → τ × List ο} {good : τ → ι → Prop}
    {R : σ → τ → List ι → Prop} (hle : ∀ s i, (step s i).2.length ≤ 1) (hone : ∀ t i, (spec t i).2.length = 1)
    (hgood : ∀ s t i is, R s t (i :: is) → good t i →
      (step s i).2 = (spec t i).2 ∧ R (step s i).1 (spec t i).1 is)
    (hbad : ∀ s t i is, R s t (i :: is) → ¬ good t i → (step s i).2 ≠ (spec t i).2) {s : σ} {t : τ} {is : List ι}
    (hR : R s t is) : (run step s is).2 = (run spec t is).2 ↔ Guarded spec good t is := by
  induction is generalizing s t with
  | nil => simp [Guarded]
  | cons i is ih =>
      rw [run_cons, run_cons]
      by_cases hi : good t i
      · obtain ⟨hout, hR'⟩ := hgood s t i is hR hi
        rw [hout, List.append_cancel_left_eq, ih hR']
        exact (and_iff_right hi).symm
      · refine iff_of_false (fun heq => ?_) fun h => hi h.1
        -- The machine can not catch up: after this input it emits at most once for each of the others.
        have hlength := congrArg List.length heq
        have hrest := length_outputs_le hle (step s i).1 is
        have hspec := length_outputs_eq hone (spec t i).1 is
        have h₁ := hle s i
        have h₂ := hone t i
        rw [List.length_append, List.length_append] at hlength
        exact hbad s t i is hR hi (List.append_inj heq (by omega)).1

/-! ## A ledger -/

section Ledger

variable {Inv : σ → Prop} {held : σ → Nat} {paid booked : List ο → Nat} {loss : σ → ι → Nat}

/-- **A ledger.** When each step pays out and holds what was held and what is booked, but for a loss, a run does so
    exactly if none of its steps loses anything; and it never pays out and holds more. -/
theorem run_balance_iff (hpaid : ∀ xs ys, paid (xs ++ ys) = paid xs + paid ys)
    (hbooked : ∀ xs ys, booked (xs ++ ys) = booked xs + booked ys) (hstep : ∀ s i, Inv s → Inv (step s i).1)
    (hbalance : ∀ s i, Inv s → paid (step s i).2 + held (step s i).1 + loss s i = held s + booked (step s i).2)
    {s : σ} (hs : Inv s) (is : List ι) :
    paid (run step s is).2 + held (run step s is).1 ≤ held s + booked (run step s is).2 ∧
    (paid (run step s is).2 + held (run step s is).1 = held s + booked (run step s is).2 ↔
      Guarded step (fun s i => loss s i = 0) s is) := by
  induction is generalizing s with
  | nil =>
      have hpaidNil := hpaid [] []
      have hbookedNil := hbooked [] []
      rw [List.append_nil] at hpaidNil hbookedNil
      rw [run_nil]
      dsimp only
      exact ⟨by omega, iff_of_true (by omega) trivial⟩
  | cons i is ih =>
      obtain ⟨hle, hiff⟩ := ih (hstep s i hs)
      have hfirst := hbalance s i hs
      rw [run_cons]
      dsimp only
      rw [hpaid, hbooked]
      refine ⟨by omega, fun heq => ?_, fun ⟨hloss, hrest⟩ => ?_⟩
      · -- the rest never gains, so what the first step loses stays lost
        exact ⟨by omega, hiff.mp (by omega)⟩
      · have hequal := hiff.mpr hrest
        omega

end Ledger

/-! ## Steps that may fail -/

section Failing

variable {τ : Type*} {attempt : σ → ι → Option (σ × List ο)} {spec : τ → ι → τ × List ο} {R : σ → τ → Prop}

/-- A run ends with the first step that fails. -/
def runM (attempt : σ → ι → Option (σ × List ο)) (s : σ) : List ι → Option (σ × List ο)
  | []      => some (s, [])
  | i :: is => do
    let next ← attempt s i
    let last ← runM attempt next.1 is
    return (last.1, next.2 ++ last.2)

/-- **Refinement.** When every step goes as the specification says, runs do, and none of them fails. -/
theorem runM_refines
    (hstep : ∀ s t i, R s t → ∃ s', attempt s i = some (s', (spec t i).2) ∧ R s' (spec t i).1) {s : σ} {t : τ}
    (hR : R s t) (is : List ι) :
    ∃ s', runM attempt s is = some (s', (run spec t is).2) ∧ R s' (run spec t is).1 := by
  induction is generalizing s t with
  | nil => exact ⟨s, rfl, hR⟩
  | cons i is ih =>
      obtain ⟨s₁, hattempt, hR₁⟩ := hstep s t i hR
      obtain ⟨s₂, hrest, hR₂⟩ := ih hR₁
      refine ⟨s₂, ?_, hR₂⟩
      rw [runM, hattempt, Option.bind_eq_bind, Option.bind_some, hrest]
      rfl

end Failing

end Machine
