import TradingPlatform.Library.Machine

/-!
# `Library.Latch` — putting two halves together

Things are sent in two halves, the one marked `true` first. A latch keeps the half that came last and fires when
the other one comes: it never asks whose halves they are. Each half carries its owner here, so a firing says
whose halves were put together.

Of every thing sent both halves arrive, or one of them, or none. The firings put together only what belongs
together iff the patterns follow each other (`matched_of_chain`, `mismatch_of_not_chain`).
-/

namespace Latch

variable {β : Type*}

/-- A firing is the owner of the `true` half with the owner of the `false` half. -/
def step (pending : Option (Bool × β)) (half : Bool × β) : Option (Bool × β) × List (β × β) :=
  match pending with
  | none               => (some half, [])
  | some (side, owner) =>
    if side = half.1 then (some half, [])
    else (none, [if half.1 then (half.2, owner) else (owner, half.2)])

/-- A thing and which of its halves arrive. -/
abbrev Delivery (β : Type*) := β × Bool × Bool

def halves : Delivery β → List (Bool × β)
  | (owner, first, second) => (if first then [(true, owner)] else []) ++ (if second then [(false, owner)] else [])

/-- What `y` may come after `x`: after a lone second half only lone second halves, and no lone second half right
    after a lone first one. -/
def Follows (x y : Bool × Bool) : Prop :=
  (x = (false, true) → y = (false, true)) ∧ (x = (true, false) → y ≠ (false, true))

instance (x y : Bool × Bool) : Decidable (Follows x y) := inferInstanceAs (Decidable (_ ∧ _))

/-- The patterns of the things of which something arrives. -/
def patterns (ds : List (Delivery β)) : List (Bool × Bool) := (ds.map Prod.snd).filter (· ≠ (false, false))

/-- What is pending after the halves of `owner` under this pattern, if all went well. -/
def pendingAfter (owner : β) : Bool × Bool → Option (Bool × β)
  | (true, false) => some (true, owner)
  | (false, true) => some (false, owner)
  | _             => none

/-- The halves of one thing, where its pattern follows: it fires for both halves of the thing, or not at all. -/
theorem run_halves {x y : Bool × Bool} (hfollows : Follows x y) (hne : y ≠ (false, false)) (b c : β) :
    Machine.run step (pendingAfter b x) (halves (c, y))
      = (pendingAfter c y, if y = (true, true) then [(c, c)] else []) := by
  obtain ⟨h₁, h₂⟩ := hfollows
  obtain ⟨x₁, x₂⟩ := x
  obtain ⟨y₁, y₂⟩ := y
  cases x₁ <;> cases x₂ <;> cases y₁ <;> cases y₂ <;> simp_all [halves, pendingAfter, step]

/-- And where it does not: it fires for halves of both things. -/
theorem run_halves_mismatch {x y : Bool × Bool} (h : ¬ Follows x y) (hne : y ≠ (false, false)) (b c : β) :
    (b, c) ∈ (Machine.run step (pendingAfter b x) (halves (c, y))).2 ∨
      (c, b) ∈ (Machine.run step (pendingAfter b x) (halves (c, y))).2 := by
  obtain ⟨x₁, x₂⟩ := x
  obtain ⟨y₁, y₂⟩ := y
  cases x₁ <;> cases x₂ <;> cases y₁ <;> cases y₂ <;> simp_all [Follows, halves, pendingAfter, step]

theorem patterns_cons {y : Bool × Bool} (hne : y ≠ (false, false)) (c : β) (ds : List (Delivery β)) :
    patterns ((c, y) :: ds) = y :: patterns ds := by
  unfold patterns
  exact List.filter_cons_of_pos (decide_eq_true hne)

/-! ## Whole runs -/

theorem matched_after {x : Bool × Bool} {b : β} {ds : List (Delivery β)}
    (h : (x :: patterns ds).IsChain Follows) :
    ∀ firing ∈ (Machine.run step (pendingAfter b x) (ds.flatMap halves)).2, firing.1 = firing.2 := by
  induction ds generalizing x b with
  | nil => intro firing hmem; cases hmem
  | cons d ds ih =>
      obtain ⟨c, y⟩ := d
      by_cases hne : y = (false, false)
      · subst hne
        exact ih h
      · rw [patterns_cons hne, List.isChain_cons_cons] at h
        rw [List.flatMap_cons, Machine.run_append_outputs, run_halves h.1 hne]
        intro firing hmem
        rcases List.mem_append.mp hmem with hmem | hmem
        · split at hmem
          · rw [List.mem_singleton.mp hmem]
          · cases hmem
        · exact ih h.2 firing hmem

/-- Some firing takes its halves from two things, of which one was sent before the other. -/
def Mismatched (owners : List β) (firings : List (β × β)) : Prop :=
  ∃ p q, [p, q].Sublist owners ∧ ((p, q) ∈ firings ∨ (q, p) ∈ firings)

theorem mismatch_after {x : Bool × Bool} {b : β} {ds : List (Delivery β)}
    (h : ¬ (x :: patterns ds).IsChain Follows) :
    Mismatched (b :: ds.map Prod.fst) (Machine.run step (pendingAfter b x) (ds.flatMap halves)).2 := by
  induction ds generalizing x b with
  | nil => exact absurd (.singleton x) h
  | cons d ds ih =>
      obtain ⟨c, y⟩ := d
      by_cases hne : y = (false, false)
      · subst hne
        obtain ⟨p, q, hsub, hfire⟩ := ih h
        refine ⟨p, q, hsub.trans ?_, hfire⟩
        exact List.Sublist.cons_cons b (List.sublist_cons_self ..)
      · rw [patterns_cons hne, List.isChain_cons_cons, not_and_or] at h
        rw [List.flatMap_cons, Machine.run_append_outputs]
        by_cases hfollows : Follows x y
        · -- the mismatch comes later
          obtain ⟨p, q, hsub, hfire⟩ := ih (h.resolve_left (not_not_intro hfollows))
          rw [run_halves hfollows hne]
          exact ⟨p, q, hsub.cons b, hfire.imp (List.mem_append_right _) (List.mem_append_right _)⟩
        · refine ⟨b, c, ?_, ?_⟩
          · exact List.Sublist.cons_cons b (List.Sublist.cons_cons c (List.nil_sublist _))
          · exact (run_halves_mismatch hfollows hne b c).imp (List.mem_append_left _) (List.mem_append_left _)

/-- An empty latch starts with the first thing of which something arrives. -/
theorem start (ds : List (Delivery β)) :
    patterns ds = [] ∧ ds.flatMap halves = [] ∨
    ∃ c y ds', patterns ds = y :: patterns ds' ∧ ds.flatMap halves = halves (c, y) ++ ds'.flatMap halves ∧
      y ≠ (false, false) ∧ (c :: ds'.map Prod.fst).Sublist (ds.map Prod.fst) := by
  induction ds with
  | nil => exact Or.inl ⟨rfl, rfl⟩
  | cons d ds ih =>
      obtain ⟨c, y⟩ := d
      by_cases hne : y = (false, false)
      · subst hne
        rcases ih with ⟨hp, hh⟩ | ⟨c', y', ds', hp, hh, hne', hsub⟩
        · exact Or.inl ⟨hp, hh⟩
        · exact Or.inr ⟨c', y', ds', hp, hh, hne', hsub.cons c⟩
      · exact Or.inr ⟨c, y, ds, patterns_cons hne c ds, List.flatMap_cons, hne, List.Sublist.refl _⟩

theorem follows_both (y : Bool × Bool) : Follows (true, true) y :=
  ⟨fun h => (by cases h), fun h => (by cases h)⟩

/-- **Where every pattern follows, the halves of every firing belong together.** -/
theorem matched_of_chain {ds : List (Delivery β)} (h : (patterns ds).IsChain Follows) :
    ∀ firing ∈ (Machine.run step none (ds.flatMap halves)).2, firing.1 = firing.2 := by
  rcases start ds with ⟨-, hh⟩ | ⟨c, y, ds', hp, hh, hne, -⟩
  · rw [hh]
    intro firing hmem
    cases hmem
  · rw [hp] at h
    have hchain : ((true, true) :: patterns ((c, y) :: ds')).IsChain Follows := by
      rw [patterns_cons hne]
      exact .cons_cons (follows_both y) h
    rw [hh, ← List.flatMap_cons]
    exact @matched_after _ _ c _ hchain

/-- **Where one does not, some firing mixes two things.** -/
theorem mismatch_of_not_chain {ds : List (Delivery β)} (h : ¬ (patterns ds).IsChain Follows) :
    Mismatched (ds.map Prod.fst) (Machine.run step none (ds.flatMap halves)).2 := by
  rcases start ds with ⟨hp, -⟩ | ⟨c, y, ds', hp, hh, hne, hsub⟩
  · rw [hp] at h
    exact absurd .nil h
  · rw [hp] at h
    obtain ⟨p, q, hpq, hfire⟩ := @mismatch_after _ y c ds' h
    refine ⟨p, q, hpq.trans hsub, ?_⟩
    have hfirst : Machine.run step none (halves (c, y))
        = (pendingAfter c y, if y = (true, true) then [(c, c)] else []) := run_halves (follows_both y) hne c c
    rw [hh, Machine.run_append_outputs, hfirst]
    exact hfire.imp (List.mem_append_right _) (List.mem_append_right _)

/-- Both halves of a firing have arrived. -/
theorem halves_of_firing {pending : Option (Bool × β)} {hs : List (Bool × β)} {firing : β × β}
    (h : firing ∈ (Machine.run step pending hs).2) :
    (true, firing.1) ∈ pending.toList ++ hs ∧ (false, firing.2) ∈ pending.toList ++ hs := by
  induction hs generalizing pending with
  | nil => cases h
  | cons half hs ih =>
      rw [Machine.run_cons] at h
      have hnow : ∀ f ∈ (step pending half).2,
          (true, f.1) ∈ pending.toList ++ [half] ∧ (false, f.2) ∈ pending.toList ++ [half] := by
        obtain ⟨side, owner⟩ := half
        unfold step
        rcases pending with _ | ⟨side', owner'⟩
        · intro f hf
          cases hf
        · cases side <;> cases side' <;> simp
      have hkept : ∀ x ∈ (step pending half).1.toList, x ∈ pending.toList ++ [half] := by
        obtain ⟨side, owner⟩ := half
        unfold step
        rcases pending with _ | ⟨side', owner'⟩
        · simp
        · cases side <;> cases side' <;> simp
      have hsplit : pending.toList ++ half :: hs = (pending.toList ++ [half]) ++ hs := by simp
      rw [hsplit]
      rcases List.mem_append.mp h with h | h
      · obtain ⟨h₁, h₂⟩ := hnow firing h
        exact ⟨List.mem_append_left _ h₁, List.mem_append_left _ h₂⟩
      · obtain ⟨h₁, h₂⟩ := ih h
        have hcarry : ∀ x ∈ (step pending half).1.toList ++ hs, x ∈ (pending.toList ++ [half]) ++ hs := by
          intro x hx
          rcases List.mem_append.mp hx with hx | hx
          · exact List.mem_append_left _ (hkept x hx)
          · exact List.mem_append_right _ hx
        exact ⟨hcarry _ h₁, hcarry _ h₂⟩

end Latch
