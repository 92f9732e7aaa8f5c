import TradingPlatform.Library.Machine

/-!
# `Library.FailStop` — a machine that an input may stop for good

Some inputs are fatal. A fatal input is still worked on, and nothing after it is. So a run is the run of the machine
that never stops, on the inputs up to the first fatal one (`run_failStop`).
-/

namespace Machine

variable {σ ι ο : Type*}

/-- The inputs before the first fatal one, and that one. -/
def upToFirst (fatal : ι → Bool) (is : List ι) : List ι := is.takeWhile (!fatal ·) ++ (is.find? fatal).toList

variable {fatal : ι → Bool}

theorem upToFirst_cons (i : ι) (is : List ι) :
    upToFirst fatal (i :: is) = i :: if fatal i then [] else upToFirst fatal is := by
  unfold upToFirst
  cases h : fatal i <;> simp [h]

/-- What is not fatal does not matter to what is made of the fatal input alone, and the other way around. -/
theorem flatMap_upToFirst {β : Type*} {f : ι → List β} (h : ∀ i, fatal i = true → f i = []) (is : List ι) :
    (upToFirst fatal is).flatMap f = (is.takeWhile (!fatal ·)).flatMap f := by
  rw [upToFirst, List.flatMap_append]
  cases hfind : is.find? fatal with
  | none => exact List.append_nil _
  | some i =>
      have hfatal := List.find?_some hfind
      rw [Option.toList_some, List.flatMap_singleton, h i hfatal, List.append_nil]

/-- The machine with whether it still runs. -/
def failStop (step : σ → ι → σ × List ο) (fatal : ι → Bool) (s : σ × Bool) (i : ι) : (σ × Bool) × List ο :=
  if s.2 then (((step s.1 i).1, !fatal i), (step s.1 i).2) else (s, [])

variable {step : σ → ι → σ × List ο}

theorem run_failStop_dead (s : σ) (is : List ι) : run (failStop step fatal) (s, false) is = ((s, false), []) := by
  induction is with
  | nil => rfl
  | cons i is ih =>
      rw [run_cons]
      show ((run (failStop step fatal) (s, false) is).1, [] ++ (run (failStop step fatal) (s, false) is).2) = _
      rw [ih]
      rfl

/-- **A run up to the first fatal input.** -/
theorem run_failStop (s : σ) (is : List ι) :
    run (failStop step fatal) (s, true) is =
      (((run step s (upToFirst fatal is)).1, is.all (!fatal ·)), (run step s (upToFirst fatal is)).2) := by
  induction is generalizing s with
  | nil => rfl
  | cons i is ih =>
      rw [run_cons, upToFirst_cons]
      show ((run (failStop step fatal) ((step s i).1, !fatal i) is).1,
        (step s i).2 ++ (run (failStop step fatal) ((step s i).1, !fatal i) is).2) = _
      cases h : fatal i with
      | true =>
          rw [Bool.not_true, run_failStop_dead]
          simp [h]
      | false =>
          rw [Bool.not_false, ih]
          simp [h]

/-- Inputs that come in batches. -/
theorem run_batches {κ : Type*} (batch : κ → List ι) (s : σ) (ks : List κ) :
    run (fun s k => run step s (batch k)) s ks = run step s (ks.flatMap batch) := by
  induction ks generalizing s with
  | nil => rfl
  | cons k ks ih =>
      rw [run_cons, ih, List.flatMap_cons]
      exact (run_append rfl rfl).symm

end Machine
