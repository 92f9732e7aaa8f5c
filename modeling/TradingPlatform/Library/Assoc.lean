import TradingPlatform.Library.Ladder
import Mathlib.Algebra.BigOperators.Group.List.Basic
import Mathlib.Algebra.Order.Group.Multiset

/-!
# `Library.Assoc` — keyed lists in the order their keys arrived

A list of entries that is searched from the front: a write overwrites the first entry of its key or appends one,
an erase takes out all of them. Which keys are left depends on the last write of each key only, whatever the list
was (`mem_keys_writeAll`). With every key once, sorting such a list gives a ladder, and writing commutes with
sorting (`insertionSort_writeAll`). A sum over the entries changes by what the written entry counts (`sum_put`), a
list made of them by what it gives (`perm_flatMap_put`).
-/

namespace Assoc

open Ladder

variable {K V : Type*}

section Writes

variable [DecidableEq K]

/-- Overwrite the first entry of `k`, or append one. -/
def put (k : K) (v : V) : List (K × V) → List (K × V)
  | []      => [(k, v)]
  | e :: es => if e.1 = k then (e.1, v) :: es else e :: put k v es

/-- Take out every entry of `k`. -/
def drop (k : K) (l : List (K × V)) : List (K × V) := l.filter (·.1 ≠ k)

def write (l : List (K × V)) : K × Option V → List (K × V)
  | (k, some v) => put k v l
  | (k, none)   => drop k l

def writeAll (l : List (K × V)) (ops : List (K × Option V)) : List (K × V) := ops.foldl write l

theorem writeAll_snoc (l : List (K × V)) (ops : List (K × Option V)) (op : K × Option V) :
    writeAll l (ops ++ [op]) = write (writeAll l ops) op := by
  simp [writeAll]

/-! ## Keys -/

theorem keys_put (k : K) (v : V) (l : List (K × V)) :
    (put k v l).map Prod.fst = if k ∈ l.map Prod.fst then l.map Prod.fst else l.map Prod.fst ++ [k] := by
  induction l with
  | nil => rfl
  | cons e es ih =>
      unfold put
      by_cases hk : e.1 = k
      · simp [hk]
      · rw [if_neg hk, List.map_cons, ih, List.map_cons]
        by_cases hmem : k ∈ es.map Prod.fst
        · rw [if_pos hmem, if_pos (List.mem_cons_of_mem _ hmem)]
        · rw [if_neg hmem, if_neg (by simp [hmem, Ne.symm hk]), List.cons_append]

theorem mem_keys_put {k k' : K} {v : V} {l : List (K × V)} :
    k' ∈ (put k v l).map Prod.fst ↔ k' = k ∨ k' ∈ l.map Prod.fst := by
  rw [keys_put]
  by_cases hmem : k ∈ l.map Prod.fst
  · rw [if_pos hmem]
    constructor
    · exact Or.inr
    · rintro (rfl | h)
      · exact hmem
      · exact h
  · rw [if_neg hmem, List.mem_append, List.mem_singleton, or_comm]

theorem mem_keys_drop {k k' : K} {l : List (K × V)} :
    k' ∈ (drop k l).map Prod.fst ↔ k' ≠ k ∧ k' ∈ l.map Prod.fst := by
  simp only [drop, List.mem_map, List.mem_filter, decide_eq_true_eq]
  constructor
  · rintro ⟨e, ⟨he, hne⟩, rfl⟩
    exact ⟨hne, e, he, rfl⟩
  · rintro ⟨hne, e, he, rfl⟩
    exact ⟨e, ⟨he, hne⟩, rfl⟩

/-- **The last write of a key decides** whether it is there. -/
theorem mem_keys_writeAll {k : K} {l : List (K × V)} {ops : List (K × Option V)} :
    k ∈ (writeAll l ops).map Prod.fst ↔
      (∃ v, lastWrite k ops = some (some v)) ∨ (lastWrite k ops = none ∧ k ∈ l.map Prod.fst) := by
  induction ops using List.reverseRecOn with
  | nil => simp [writeAll]
  | append_singleton ops op ih =>
      obtain ⟨k', o⟩ := op
      rw [writeAll_snoc, lastWrite_snoc]
      cases o with
      | none =>
          rw [show write (writeAll l ops) (k', none) = drop k' (writeAll l ops) from rfl, mem_keys_drop, ih]
          by_cases hk : k' = k
          · simp [hk]
          · simp [hk, Ne.symm hk]
      | some v =>
          rw [show write (writeAll l ops) (k', some v) = put k' v (writeAll l ops) from rfl, mem_keys_put, ih]
          by_cases hk : k' = k
          · simp [hk]
          · simp [hk, Ne.symm hk]

/-! ## Every key once -/

theorem nodup_put {l : List (K × V)} (h : (l.map Prod.fst).Nodup) (k : K) (v : V) :
    ((put k v l).map Prod.fst).Nodup := by
  rw [keys_put]
  by_cases hmem : k ∈ l.map Prod.fst
  · rwa [if_pos hmem]
  · rw [if_neg hmem]
    exact List.nodup_append.mpr ⟨h, List.nodup_singleton _, fun a ha b hb hab => by
      rw [List.mem_singleton.mp hb] at hab
      exact hmem (hab ▸ ha)⟩

theorem nodup_write {l : List (K × V)} (h : (l.map Prod.fst).Nodup) (op : K × Option V) :
    ((write l op).map Prod.fst).Nodup := by
  obtain ⟨k, o⟩ := op
  cases o with
  | none => exact h.sublist (List.filter_sublist.map _)
  | some v => exact nodup_put h k v

theorem nodup_writeAll {l : List (K × V)} (h : (l.map Prod.fst).Nodup) (ops : List (K × Option V)) :
    ((writeAll l ops).map Prod.fst).Nodup := by
  induction ops generalizing l with
  | nil => exact h
  | cons op ops ih => exact ih (nodup_write h op)

theorem mem_put {l : List (K × V)} (h : (l.map Prod.fst).Nodup) {k : K} {v : V} {e : K × V} :
    e ∈ put k v l ↔ e = (k, v) ∨ (e.1 ≠ k ∧ e ∈ l) := by
  induction l with
  | nil => simp [put]
  | cons x es ih =>
      obtain ⟨hx, hes⟩ := List.nodup_cons.mp h
      have hother : ∀ e ∈ es, e.1 ≠ x.1 := fun e he heq => hx (heq ▸ List.mem_map_of_mem he)
      unfold put
      by_cases hk : x.1 = k
      · subst hk
        rw [if_pos rfl, List.mem_cons, List.mem_cons]
        constructor
        · rintro (rfl | he)
          · exact Or.inl rfl
          · exact Or.inr ⟨hother e he, Or.inr he⟩
        · rintro (rfl | ⟨hne, rfl | he⟩)
          · exact Or.inl rfl
          · exact absurd rfl hne
          · exact Or.inr he
      · rw [if_neg hk, List.mem_cons, ih hes, List.mem_cons]
        constructor
        · rintro (rfl | rfl | ⟨hne, he⟩)
          · exact Or.inr ⟨hk, Or.inl rfl⟩
          · exact Or.inl rfl
          · exact Or.inr ⟨hne, Or.inr he⟩
        · rintro (rfl | ⟨hne, rfl | he⟩)
          · exact Or.inr (Or.inl rfl)
          · exact Or.inl rfl
          · exact Or.inr (Or.inr ⟨hne, he⟩)

theorem mem_write {l : List (K × V)} (h : (l.map Prod.fst).Nodup) {op : K × Option V} {e : K × V} :
    e ∈ write l op ↔ (e.1 = op.1 ∧ op.2 = some e.2) ∨ (e.1 ≠ op.1 ∧ e ∈ l) := by
  obtain ⟨k, o⟩ := op
  cases o with
  | none => simp [write, drop, and_comm]
  | some v =>
      show e ∈ put k v l ↔ _
      rw [mem_put h, Prod.ext_iff]
      simp [eq_comm]

/-! ## Lists of maps -/

/-- **A write in the list is the write in the map** it lists. -/
theorem lists_write {l : List (K × V)} {m : K → Option V} (h : (l.map Prod.fst).Nodup) (hm : Lists l m)
    (op : K × Option V) : Lists (write l op) (assign m op) := by
  intro k v
  rw [mem_write h, assign]
  by_cases hk : k = op.1
  · rw [hk, Function.update_self]
    simp
  · rw [Function.update_of_ne hk, hm k v]
    simp [hk]

theorem lists_writeAll {l : List (K × V)} {m : K → Option V} (h : (l.map Prod.fst).Nodup) (hm : Lists l m)
    (ops : List (K × Option V)) : Lists (writeAll l ops) (ops.foldl assign m) := by
  induction ops generalizing l m with
  | nil => exact hm
  | cons op ops ih => exact ih (nodup_write h op) (lists_write h hm op)

/-- What holds of the values that were there and of those written holds of all. -/
theorem forall_writeAll {P : V → Prop} {l : List (K × V)} (h : (l.map Prod.fst).Nodup) (hl : ∀ e ∈ l, P e.2)
    {ops : List (K × Option V)} (hops : ∀ op ∈ ops, ∀ v, op.2 = some v → P v) : ∀ e ∈ writeAll l ops, P e.2 := by
  induction ops generalizing l with
  | nil => exact hl
  | cons op ops ih =>
      obtain ⟨hop, hrest⟩ := List.forall_mem_cons.mp hops
      refine ih (nodup_write h op) ?_ hrest
      intro e he
      rcases (mem_write h).mp he with ⟨-, hv⟩ | ⟨-, hold⟩
      · exact hop _ hv
      · exact hl e hold

/-! ## Looking up -/

variable [BEq K] [LawfulBEq K]

omit [DecidableEq K] in
/-- With every key once, the list lists what is looked up in it. -/
theorem lists_lookup {l : List (K × V)} (h : (l.map Prod.fst).Nodup) : Lists l (l.lookup ·) := by
  intro k v
  show _ ↔ l.lookup k = some v
  induction l with
  | nil => exact ⟨nofun, nofun⟩
  | cons e es ih =>
      obtain ⟨he, hes⟩ := List.nodup_cons.mp h
      rw [List.mem_cons, List.lookup_cons]
      by_cases hk : k = e.1
      · subst hk
        have hnone : (e.1, v) ∉ es := fun hmem => he (List.mem_map.mpr ⟨_, hmem, rfl⟩)
        rw [beq_self_eq_true, or_iff_left hnone, Prod.ext_iff]
        simp [eq_comm]
      · have hne : (k == e.1) = false := beq_eq_false_iff_ne.mpr hk
        rw [hne, ← ih hes]
        exact or_iff_right fun heq => hk (congrArg Prod.fst heq)

theorem lookup_put_self (k : K) (v : V) (l : List (K × V)) : (put k v l).lookup k = some v := by
  induction l with
  | nil => exact List.lookup_cons_self
  | cons e es ih =>
      unfold put
      by_cases hk : e.1 = k
      · rw [if_pos hk, hk]
        exact List.lookup_cons_self
      · have hne : (k == e.1) = false := beq_eq_false_iff_ne.mpr (Ne.symm hk)
        rw [if_neg hk, List.lookup_cons, hne]
        exact ih

theorem lookup_put_ne {k k' : K} (h : k' ≠ k) (v : V) (l : List (K × V)) : (put k v l).lookup k' = l.lookup k' := by
  induction l with
  | nil =>
      have hne : (k' == k) = false := beq_eq_false_iff_ne.mpr h
      show List.lookup k' [(k, v)] = _
      rw [List.lookup_cons, hne]
  | cons e es ih =>
      unfold put
      by_cases hk : e.1 = k
      · have hne : (k' == e.1) = false := beq_eq_false_iff_ne.mpr (hk ▸ h)
        rw [if_pos hk, List.lookup_cons, hne, List.lookup_cons, hne]
      · rw [if_neg hk, List.lookup_cons, List.lookup_cons, ih]

omit [DecidableEq K] in
theorem mem_of_lookup {k : K} {v : V} {l : List (K × V)} (h : l.lookup k = some v) : (k, v) ∈ l := by
  obtain ⟨before, after, rfl, -⟩ := List.lookup_eq_some_iff.mp h
  exact List.mem_append_right _ List.mem_cons_self

omit [BEq K] [LawfulBEq K] in
/-- What is in the list after a write was written or was there. -/
theorem snd_of_mem_put {k : K} {v : V} {l : List (K × V)} {e : K × V} (h : e ∈ put k v l) : e.2 = v ∨ e ∈ l := by
  induction l with
  | nil => exact .inl (congrArg Prod.snd (List.mem_singleton.mp h))
  | cons x es ih =>
      unfold put at h
      by_cases hk : x.1 = k
      · rw [if_pos hk] at h
        rcases List.mem_cons.mp h with rfl | he
        · exact .inl rfl
        · exact .inr (List.mem_cons_of_mem _ he)
      · rw [if_neg hk] at h
        rcases List.mem_cons.mp h with rfl | he
        · exact .inr List.mem_cons_self
        · exact (ih he).imp_right (List.mem_cons_of_mem _)

/-- **A sum over the entries** changes by what the written entry counts. -/
theorem sum_put {M : Type*} [AddCommMonoid M] (f : V → M) (k : K) (v : V) (l : List (K × V)) :
    ((put k v l).map fun e => f e.2).sum + ((l.lookup k).map f).getD 0 = (l.map fun e => f e.2).sum + f v := by
  induction l with
  | nil =>
      rw [List.lookup_nil, Option.map_none, Option.getD_none, add_zero]
      show ([(k, v)].map fun e => f e.2).sum = _
      rw [List.map_singleton, List.sum_singleton, List.map_nil, List.sum_nil, zero_add]
  | cons e es ih =>
      unfold put
      by_cases hk : e.1 = k
      · have hfound : (k == e.1) = true := beq_iff_eq.mpr hk.symm
        rw [if_pos hk, List.lookup_cons, hfound]
        show f v + (es.map fun e => f e.2).sum + f e.2 = f e.2 + (es.map fun e => f e.2).sum + f v
        rw [add_comm (f v), add_right_comm, add_comm (f e.2)]
      · have hother : (k == e.1) = false := beq_eq_false_iff_ne.mpr (Ne.symm hk)
        rw [if_neg hk, List.lookup_cons, hother, List.map_cons, List.sum_cons, add_assoc, ih, List.map_cons,
          List.sum_cons, add_assoc]

/-- **What the entries give together** changes by what the written entry gives. -/
theorem perm_flatMap_put {M : Type*} (f : V → List M) (k : K) (v : V) (l : List (K × V)) :
    (((put k v l).flatMap fun e => f e.2) ++ ((l.lookup k).map f).getD []).Perm ((l.flatMap fun e => f e.2) ++ f v) := by
  have hcoe : ∀ l : List (K × V), ((l.flatMap fun e => f e.2 : List M) : Multiset M) =
      (l.map fun e => (f e.2 : Multiset M)).sum := by
    intro l
    induction l with
    | nil => rfl
    | cons e es ih => rw [List.flatMap_cons, ← Multiset.coe_add, ih, List.map_cons, List.sum_cons]
  have hget : ((((l.lookup k).map f).getD [] : List M) : Multiset M) =
      ((l.lookup k).map fun v => (f v : Multiset M)).getD 0 := by
    cases l.lookup k <;> rfl
  apply Multiset.coe_eq_coe.mp
  rw [← Multiset.coe_add, ← Multiset.coe_add, hcoe, hcoe, hget]
  exact sum_put (fun v => (f v : Multiset M)) k v l

end Writes

/-! ## Sorting -/

variable [DecidableEq K] {r s : K → K → Prop} [DecidableRel r] [DecidableRel s] [IsStrictTotalOrder K r]

omit [DecidableEq K] [DecidableRel r] in
/-- Sorted by "not worse", entries with different keys are a ladder. -/
theorem sorted_insertionSort (hs : ∀ a b, s a b ↔ ¬ r b a) {l : List (K × V)} (h : (l.map Prod.fst).Nodup) :
    Sorted r (l.insertionSort fun a b => s a.1 b.1) := by
  have htotal : Std.Total fun a b : K × V => s a.1 b.1 := by
    refine ⟨fun a b => ?_⟩
    rw [hs, hs]
    rcases trichotomous_of r a.1 b.1 with hlt | heq | hgt
    · exact Or.inl (asymm_of r hlt)
    · rw [heq]
      exact Or.inl (irrefl_of r b.1)
    · exact Or.inr (asymm_of r hgt)
  have htrans : IsTrans (K × V) fun a b => s a.1 b.1 := by
    refine ⟨fun a b c hab hbc => ?_⟩
    rw [hs] at hab hbc ⊢
    intro hca
    rcases trichotomous_of r b.1 a.1 with hlt | heq | hgt
    · exact hab hlt
    · rw [heq] at hbc
      exact hbc hca
    · exact hbc (trans_of r hca hgt)
  have hpairwise := List.pairwise_insertionSort (fun a b : K × V => s a.1 b.1) l
  have hkeys : ((l.insertionSort fun a b => s a.1 b.1).map Prod.fst).Nodup :=
    (List.Perm.map _ (List.perm_insertionSort _ l)).nodup_iff.mpr h
  refine (hpairwise.and (List.pairwise_map.mp hkeys)).imp fun {a b} hab => ?_
  rcases trichotomous_of r a.1 b.1 with hlt | heq | hgt
  · exact hlt
  · exact absurd heq hab.2
  · exact absurd hgt ((hs _ _).mp hab.1)

omit [DecidableEq K] [DecidableRel r] in
/-- A ladder is sorted already. -/
theorem insertionSort_of_sorted (hs : ∀ a b, s a b ↔ ¬ r b a) {l : List (K × V)} (h : Sorted r l) :
    (l.insertionSort fun a b => s a.1 b.1) = l :=
  (sorted_insertionSort hs h.nodup_keys).ext h fun _ => List.mem_insertionSort _

/-- **Writing in place and sorting** is writing in the ladder. -/
theorem insertionSort_writeAll (hs : ∀ a b, s a b ↔ ¬ r b a) {l : List (K × V)} (h : (l.map Prod.fst).Nodup)
    (ops : List (K × Option V)) :
    ((writeAll l ops).insertionSort fun a b => s a.1 b.1) =
      replay r (l.insertionSort fun a b => s a.1 b.1) ops := by
  induction ops using List.reverseRecOn with
  | nil => rfl
  | append_singleton ops op ih =>
      have hsorted := sorted_insertionSort hs (nodup_writeAll h ops)
      rw [replay_snoc, ← ih]
      refine (sorted_insertionSort hs (nodup_writeAll h _)).ext (sorted_write hsorted op) fun e => ?_
      rw [List.mem_insertionSort, writeAll_snoc, mem_write (nodup_writeAll h ops), Ladder.mem_write hsorted,
        List.mem_insertionSort]

end Assoc
