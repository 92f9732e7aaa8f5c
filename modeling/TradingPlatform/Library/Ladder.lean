import Mathlib.Data.List.Sort
import Mathlib.Data.List.Induction
import Mathlib.Order.Defs.Unbundled

/-!
# `Library.Ladder` — keyed lists kept best-first, and what a bounded copy of one forgets

A *ladder* is an association list `List (K × V)` whose keys strictly descend from the best one, "better"
being an arbitrary strict total order `r`. The two writes are `upsert` and `erase`; `write` packs them as
one operation `(key, some value)` / `(key, none)`.

## Contents
- **Writes.** Membership after `upsert`/`erase`/`write`, and preservation of `Sorted`.
- **Last writer wins.** `lastWrite k ops` reads the last operation on `k` off the history; a run of
  writes holds exactly the entries that reading gives (`mem_replay`).
- **Bounded copies.** `writeBounded n` truncates to the best `n` entries after each write. The copy
  forgets what falls off the end, so a later erase can expose a wrong entry. `Tally` counts the erases
  issued after the unbounded ladder first outgrew `n`; `replayBounded_take` says each of them costs at most
  one level of agreement, counted from the worst end.
- **Positions.** An upsert as a change in place or an insertion behind the better keys, an erase as a removal.
- **Maps.** `Lists l m`: the ladder lists the partial map `m`; writes on both sides correspond.
- **The best of a list.** A fold that keeps the better of two ends with an element none is better than.
-/

namespace Ladder

variable {K V : Type*}

/-- Keys strictly get worse along the list. -/
def Sorted (r : K → K → Prop) (l : List (K × V)) : Prop := l.Pairwise (fun a b => r a.1 b.1)

section Writes

variable [DecidableEq K] (r : K → K → Prop) [DecidableRel r]

/-- Overwrite the entry of `k`, or insert one in front of the first entry that `k` beats. -/
def upsert (k : K) (v : V) : List (K × V) → List (K × V)
  | []      => [(k, v)]
  | e :: es =>
      if e.1 = k then (k, v) :: es
      else if r k e.1 then (k, v) :: e :: es
      else e :: upsert k v es

/-- Remove the entry of `k`, if there is one. -/
def erase (k : K) : List (K × V) → List (K × V)
  | []      => []
  | e :: es => if e.1 = k then es else e :: erase k es

/-- One write: `(k, some v)` upserts, `(k, none)` erases. -/
def write (l : List (K × V)) : K × Option V → List (K × V)
  | (k, some v) => upsert r k v l
  | (k, none)   => erase k l

/-- A run of writes. -/
def replay (l : List (K × V)) (ops : List (K × Option V)) : List (K × V) := ops.foldl (write r) l

@[simp] theorem replay_nil (l : List (K × V)) : replay r l [] = l := rfl

@[simp] theorem replay_cons (l : List (K × V)) (op : K × Option V) (ops : List (K × Option V)) :
    replay r l (op :: ops) = replay r (write r l op) ops := rfl

theorem replay_append (l : List (K × V)) (xs ys : List (K × Option V)) :
    replay r l (xs ++ ys) = replay r (replay r l xs) ys := List.foldl_append

@[simp] theorem replay_snoc (l : List (K × V)) (ops : List (K × Option V)) (op : K × Option V) :
    replay r l (ops ++ [op]) = write r (replay r l ops) op := by
  simp [replay]

end Writes

/-! ## Sortedness and membership -/

section Shape

variable {r : K → K → Prop}

theorem sorted_nil : Sorted r ([] : List (K × V)) := List.Pairwise.nil

theorem Sorted.tail {e : K × V} {es : List (K × V)} (h : Sorted r (e :: es)) : Sorted r es :=
  (List.pairwise_cons.mp h).2

theorem Sorted.head_better {e : K × V} {es : List (K × V)} (h : Sorted r (e :: es)) :
    ∀ x ∈ es, r e.1 x.1 :=
  (List.pairwise_cons.mp h).1

theorem Sorted.take {l : List (K × V)} (h : Sorted r l) (n : Nat) : Sorted r (l.take n) :=
  List.Pairwise.sublist (List.take_sublist n l) h

variable [IsStrictTotalOrder K r]

theorem Sorted.nodup_keys {l : List (K × V)} (h : Sorted r l) : (l.map Prod.fst).Nodup := by
  refine List.pairwise_map.mpr (List.Pairwise.imp ?_ h)
  intro a b hab heq
  rw [heq] at hab
  exact irrefl_of r b.1 hab

/-- Two ladders with the same entries are the same list. -/
theorem Sorted.ext {l m : List (K × V)} (hl : Sorted r l) (hm : Sorted r m)
    (h : ∀ e, e ∈ l ↔ e ∈ m) : l = m := by
  have hperm : l.Perm m :=
    (List.perm_ext_iff_of_nodup hl.nodup_keys.of_map hm.nodup_keys.of_map).mpr h
  refine List.Perm.eq_of_pairwise ?_ hl hm hperm
  intro a b _ _ hab hba
  exact absurd (trans_of r hab hba) (irrefl_of r a.1)

end Shape

section Order

variable [DecidableEq K] {r : K → K → Prop} [DecidableRel r] [IsStrictTotalOrder K r]

/-- After an upsert: the new entry, and every old entry of another key. -/
theorem mem_upsert {l : List (K × V)} (h : Sorted r l) {k : K} {v : V} {e : K × V} :
    e ∈ upsert r k v l ↔ e = (k, v) ∨ (e.1 ≠ k ∧ e ∈ l) := by
  induction l with
  | nil => simp [upsert]
  | cons x xs ih =>
      unfold upsert
      by_cases hx : x.1 = k
      · -- the head is overwritten; a ladder does not have its key again further down
        rw [if_pos hx]
        constructor
        · intro he
          rcases List.mem_cons.mp he with he | he
          · exact Or.inl he
          · refine Or.inr ⟨fun hk => ?_, List.mem_cons_of_mem _ he⟩
            exact irrefl_of r k (by have := h.head_better e he; rwa [hx, hk] at this)
        · rintro (he | ⟨hne, he⟩)
          · exact he ▸ List.mem_cons_self
          · rcases List.mem_cons.mp he with he | he
            · exact absurd (he ▸ hx) hne
            · exact List.mem_cons_of_mem _ he
      · rw [if_neg hx]
        by_cases hb : r k x.1
        · -- in front of the head, which beats everything below it: so `k` does not occur at all
          rw [if_pos hb]
          constructor
          · intro he
            rcases List.mem_cons.mp he with he | he
            · exact Or.inl he
            · refine Or.inr ⟨fun hk => ?_, he⟩
              rcases List.mem_cons.mp he with he | he
              · exact hx (he ▸ hk)
              · have := trans_of r hb (h.head_better e he)
                rw [hk] at this
                exact irrefl_of r k this
          · rintro (he | ⟨_, he⟩)
            · exact he ▸ List.mem_cons_self
            · exact List.mem_cons_of_mem _ he
        · -- further down
          rw [if_neg hb, List.mem_cons, ih h.tail]
          constructor
          · rintro (he | he | ⟨hne, he⟩)
            · exact Or.inr ⟨he ▸ hx, he ▸ List.mem_cons_self⟩
            · exact Or.inl he
            · exact Or.inr ⟨hne, List.mem_cons_of_mem _ he⟩
          · rintro (he | ⟨hne, he⟩)
            · exact Or.inr (Or.inl he)
            · rcases List.mem_cons.mp he with he | he
              · exact Or.inl he
              · exact Or.inr (Or.inr ⟨hne, he⟩)

omit [DecidableRel r] in
/-- After an erase: every old entry of another key. -/
theorem mem_erase {l : List (K × V)} (h : Sorted r l) {k : K} {e : K × V} :
    e ∈ erase k l ↔ e.1 ≠ k ∧ e ∈ l := by
  induction l with
  | nil => simp [erase]
  | cons x xs ih =>
      unfold erase
      by_cases hx : x.1 = k
      · -- the head goes, and with it the only entry of its key
        rw [if_pos hx]
        constructor
        · intro he
          refine ⟨fun hk => ?_, List.mem_cons_of_mem _ he⟩
          exact irrefl_of r k (by have := h.head_better e he; rwa [hx, hk] at this)
        · rintro ⟨hne, he⟩
          rcases List.mem_cons.mp he with he | he
          · exact absurd (he ▸ hx) hne
          · exact he
      · rw [if_neg hx, List.mem_cons, ih h.tail]
        constructor
        · rintro (he | ⟨hne, he⟩)
          · exact ⟨he ▸ hx, he ▸ List.mem_cons_self⟩
          · exact ⟨hne, List.mem_cons_of_mem _ he⟩
        · rintro ⟨hne, he⟩
          rcases List.mem_cons.mp he with he | he
          · exact Or.inl he
          · exact Or.inr ⟨hne, he⟩

/-- One write decides the key it names and leaves every other key alone. -/
theorem mem_write {l : List (K × V)} (h : Sorted r l) {op : K × Option V} {e : K × V} :
    e ∈ write r l op ↔ (e.1 = op.1 ∧ op.2 = some e.2) ∨ (e.1 ≠ op.1 ∧ e ∈ l) := by
  obtain ⟨k, o⟩ := op
  cases o with
  | none => simpa [write] using mem_erase h
  | some v =>
      show e ∈ upsert r k v l ↔ _
      rw [mem_upsert h, Prod.ext_iff]
      simp [eq_comm]

theorem sorted_upsert {l : List (K × V)} (h : Sorted r l) (k : K) (v : V) :
    Sorted r (upsert r k v l) := by
  induction l with
  | nil => exact List.pairwise_singleton _ _
  | cons x xs ih =>
      unfold upsert
      by_cases hx : x.1 = k
      · rw [if_pos hx]
        exact List.pairwise_cons.mpr ⟨fun y hy => hx ▸ h.head_better y hy, h.tail⟩
      · rw [if_neg hx]
        by_cases hb : r k x.1
        · rw [if_pos hb]
          refine List.pairwise_cons.mpr ⟨fun y hy => ?_, h⟩
          rcases List.mem_cons.mp hy with hy | hy
          · exact hy ▸ hb
          · exact trans_of r hb (h.head_better y hy)
        · rw [if_neg hb]
          refine List.pairwise_cons.mpr ⟨fun y hy => ?_, ih h.tail⟩
          rcases (mem_upsert h.tail).mp hy with hy | ⟨_, hy⟩
          · -- `k` neither equals nor beats the head, so the head beats `k`
            rcases trichotomous_of r x.1 k with hlt | heq | hgt
            · exact hy ▸ hlt
            · exact absurd heq hx
            · exact absurd hgt hb
          · exact h.head_better y hy

omit [DecidableRel r] [IsStrictTotalOrder K r] in
theorem erase_sublist (k : K) (l : List (K × V)) : (erase k l).Sublist l := by
  induction l with
  | nil => exact List.Sublist.refl _
  | cons x xs ih =>
      unfold erase
      split
      · exact List.sublist_cons_self x xs
      · exact ih.cons_cons x

theorem sorted_write {l : List (K × V)} (h : Sorted r l) (op : K × Option V) :
    Sorted r (write r l op) := by
  obtain ⟨k, o⟩ := op
  cases o with
  | none => exact List.Pairwise.sublist (erase_sublist k l) h
  | some v => exact sorted_upsert h k v

theorem sorted_replay {l : List (K × V)} (h : Sorted r l) (ops : List (K × Option V)) :
    Sorted r (replay r l ops) := by
  induction ops generalizing l with
  | nil => exact h
  | cons op ops ih => exact ih (sorted_write h op)

end Order

/-! ## Last writer wins -/

section LastWrite

variable [DecidableEq K]

/-- The last operation on `k` in the history, if there is one. -/
def lastWrite (k : K) (ops : List (K × Option V)) : Option (Option V) :=
  ops.foldl (fun last op => if op.1 = k then some op.2 else last) none

@[simp] theorem lastWrite_nil (k : K) : lastWrite k ([] : List (K × Option V)) = none := rfl

@[simp] theorem lastWrite_snoc (k : K) (ops : List (K × Option V)) (op : K × Option V) :
    lastWrite k (ops ++ [op]) = if op.1 = k then some op.2 else lastWrite k ops := by
  simp [lastWrite]

/-- `lastWrite` reads off an operation on `k` with no operation on `k` behind it. -/
theorem lastWrite_eq_some_iff {k : K} {o : Option V} {ops : List (K × Option V)} :
    lastWrite k ops = some o ↔
      ∃ pre post, ops = pre ++ (k, o) :: post ∧ ∀ op ∈ post, op.1 ≠ k := by
  induction ops using List.reverseRecOn with
  | nil => simp
  | append_singleton ops op ih =>
      rw [lastWrite_snoc]
      by_cases hk : op.1 = k
      · -- the new operation decides
        rw [if_pos hk]
        constructor
        · intro ho
          refine ⟨ops, [], ?_, by simp⟩
          rw [← hk, ← Option.some.inj ho]
        · rintro ⟨pre, post, heq, hpost⟩
          rcases List.eq_nil_or_concat post with rfl | ⟨post', last, rfl⟩
          · have hlast : op = (k, o) := List.singleton_inj.mp (List.append_inj' heq rfl).2
            rw [hlast]
          · have hsplit : ops ++ [op] = (pre ++ (k, o) :: post') ++ [last] := by
              rw [heq]; simp
            have hlast : op = last := List.singleton_inj.mp (List.append_inj' hsplit rfl).2
            exact absurd hk (hlast ▸ hpost last (by simp))
      · -- the new operation is on another key and joins those behind
        rw [if_neg hk, ih]
        constructor
        · rintro ⟨pre, post, rfl, hpost⟩
          refine ⟨pre, post ++ [op], by simp, ?_⟩
          intro x hx
          rcases List.mem_append.mp hx with hx | hx
          · exact hpost x hx
          · exact (List.mem_singleton.mp hx) ▸ hk
        · rintro ⟨pre, post, heq, hpost⟩
          rcases List.eq_nil_or_concat post with rfl | ⟨post', last, rfl⟩
          · have hlast : op = (k, o) := List.singleton_inj.mp (List.append_inj' heq rfl).2
            exact absurd (by rw [hlast]) hk
          · have hsplit : ops ++ [op] = (pre ++ (k, o) :: post') ++ [last] := by
              rw [heq]; simp
            refine ⟨pre, post', (List.append_inj' hsplit rfl).1, ?_⟩
            exact fun x hx => hpost x (by simp [hx])

theorem lastWrite_eq_none_iff {k : K} {ops : List (K × Option V)} :
    lastWrite k ops = none ↔ ∀ op ∈ ops, op.1 ≠ k := by
  induction ops using List.reverseRecOn with
  | nil => simp
  | append_singleton ops op ih =>
      rw [lastWrite_snoc]
      by_cases hk : op.1 = k
      · rw [if_pos hk]
        exact iff_of_false (by simp) (fun h => h op (by simp) hk)
      · rw [if_neg hk, ih]
        constructor
        · intro h x hx
          rcases List.mem_append.mp hx with hx | hx
          · exact h x hx
          · exact (List.mem_singleton.mp hx) ▸ hk
        · exact fun h x hx => h x (List.mem_append_left _ hx)

variable {r : K → K → Prop} [DecidableRel r] [IsStrictTotalOrder K r]

/-- **Replay is last-writer-wins.** An entry of the replayed ladder was either written last for its key,
    or was there before and its key was never written. -/
theorem mem_replay {l : List (K × V)} (h : Sorted r l) {ops : List (K × Option V)} {k : K} {v : V} :
    (k, v) ∈ replay r l ops ↔
      lastWrite k ops = some (some v) ∨ (lastWrite k ops = none ∧ (k, v) ∈ l) := by
  induction ops using List.reverseRecOn with
  | nil => simp
  | append_singleton ops op ih =>
      rw [replay_snoc, lastWrite_snoc, mem_write (sorted_replay h ops)]
      by_cases hk : op.1 = k
      · simp [hk]
      · have hk' : k ≠ op.1 := fun e => hk e.symm
        rw [if_neg hk, ih]
        simp [hk']

theorem mem_replay_nil {ops : List (K × Option V)} {k : K} {v : V} :
    (k, v) ∈ replay r [] ops ↔ lastWrite k ops = some (some v) := by
  rw [mem_replay sorted_nil]
  simp

/-- The ladder of some entries with different keys has these entries. -/
theorem mem_replay_some {l : List (K × V)} (h : (l.map Prod.fst).Nodup) {e : K × V} :
    e ∈ replay r [] (l.map fun e => (e.1, some e.2)) ↔ e ∈ l := by
  rw [← Prod.mk.eta (p := e), mem_replay_nil, lastWrite_eq_some_iff]
  constructor
  · rintro ⟨pre, post, heq, -⟩
    have hmem : (e.1, some e.2) ∈ l.map fun e => (e.1, some e.2) := heq ▸ List.mem_append_right _ List.mem_cons_self
    obtain ⟨e', he', heq'⟩ := List.mem_map.mp hmem
    rwa [show e' = (e.1, e.2) by simpa [Prod.ext_iff] using heq'] at he'
  · intro he
    obtain ⟨pre, post, rfl⟩ := List.append_of_mem he
    rw [List.map_append, List.map_cons] at h
    refine ⟨_, _, by rw [List.map_append, List.map_cons], fun op hop hkey => ?_⟩
    obtain ⟨e', he', rfl⟩ := List.mem_map.mp hop
    exact (List.nodup_cons.mp (List.nodup_append.mp h).2.1).1 (hkey ▸ List.mem_map_of_mem he')

/-- A list is its own ladder exactly when it is sorted. -/
theorem replay_some_eq_iff {l : List (K × V)} :
    replay r [] (l.map fun e => (e.1, some e.2)) = l ↔ Sorted r l := by
  constructor
  · intro h
    rw [← h]
    exact sorted_replay sorted_nil _
  · exact fun h => (sorted_replay sorted_nil _).ext h fun _ => mem_replay_some h.nodup_keys

end LastWrite

/-! ## Bounded copies -/

section Bounded

variable [DecidableEq K] (r : K → K → Prop) [DecidableRel r]

/-- A write into a copy that keeps the best `n` entries only. -/
def writeBounded (n : Nat) (l : List (K × V)) (op : K × Option V) : List (K × V) :=
  (write r l op).take n

def replayBounded (n : Nat) (l : List (K × V)) (ops : List (K × Option V)) : List (K × V) :=
  ops.foldl (writeBounded r n) l

@[simp] theorem replayBounded_nil (n : Nat) (l : List (K × V)) : replayBounded r n l [] = l := rfl

@[simp] theorem replayBounded_cons (n : Nat) (l : List (K × V)) (op : K × Option V)
    (ops : List (K × Option V)) :
    replayBounded r n l (op :: ops) = replayBounded r n (writeBounded r n l op) ops := rfl

@[simp] theorem replayBounded_snoc (n : Nat) (l : List (K × V)) (ops : List (K × Option V))
    (op : K × Option V) :
    replayBounded r n l (ops ++ [op]) = writeBounded r n (replayBounded r n l ops) op := by
  simp [replayBounded]

theorem replayBounded_append (n : Nat) (l : List (K × V)) (xs ys : List (K × Option V)) :
    replayBounded r n l (xs ++ ys) = replayBounded r n (replayBounded r n l xs) ys :=
  List.foldl_append

/-- The unbounded ladder of a history, with the number of erases issued at or after a moment at which it
    held more than `n` entries. -/
structure Tally (K V : Type*) where
  ladder     : List (K × V)
  overflowed : Bool
  lateErases : Nat

def Tally.init : Tally K V := { ladder := [], overflowed := false, lateErases := 0 }

/-- The overflow test reads the ladder *before* the operation: the erase must follow the moment. -/
def Tally.step (n : Nat) (t : Tally K V) (op : K × Option V) : Tally K V :=
  { ladder     := write r t.ladder op
    overflowed := t.overflowed || decide (n < t.ladder.length)
    lateErases := t.lateErases +
      if (t.overflowed || decide (n < t.ladder.length)) && op.2.isNone then 1 else 0 }

def tally (n : Nat) (ops : List (K × Option V)) : Tally K V := ops.foldl (Tally.step r n) Tally.init

/-- The number of erases in `ops` that follow a moment at which more than `n` entries were held. -/
def lateErases (n : Nat) (ops : List (K × Option V)) : Nat := (tally r n ops).lateErases

/-- No erase follows a moment at which more than `n` entries were held. -/
def NoLateErase (n : Nat) (ops : List (K × Option V)) : Prop :=
  ∀ i j k, j ≤ i → ops[i]? = some (k, none) → (replay r [] (ops.take j)).length ≤ n

@[simp] theorem tally_snoc (n : Nat) (ops : List (K × Option V)) (op : K × Option V) :
    tally r n (ops ++ [op]) = Tally.step r n (tally r n ops) op := by
  simp [tally]

@[simp] theorem tally_ladder (n : Nat) (ops : List (K × Option V)) :
    (tally r n ops).ladder = replay r [] ops := by
  induction ops using List.reverseRecOn with
  | nil => rfl
  | append_singleton ops op ih =>
      rw [tally_snoc, replay_snoc, ← ih]
      rfl

variable {r}

theorem length_replayBounded_le {n : Nat} {l : List (K × V)} (hl : l.length ≤ n)
    (ops : List (K × Option V)) : (replayBounded r n l ops).length ≤ n := by
  induction ops generalizing l with
  | nil => exact hl
  | cons op ops ih => exact ih (List.length_take_le _ _)

/-- The best `d` entries after an upsert depend on the best `d` entries before it only. -/
theorem take_upsert (k : K) (v : V) (l : List (K × V)) (d : Nat) :
    (upsert r k v l).take d = (upsert r k v (l.take d)).take d := by
  induction l generalizing d with
  | nil => simp
  | cons x xs ih =>
      cases d with
      | zero => simp
      | succ d =>
          simp only [List.take_succ_cons, upsert]
          split
          · simp [List.take_take]
          · split
            · cases d <;> simp [List.take_take]
            · simpa using ih d

/-- The best `d` entries after an erase depend on one more entry before it. -/
theorem take_erase (k : K) (l : List (K × V)) (d : Nat) :
    (erase k l).take d = (erase k (l.take (d + 1))).take d := by
  induction l generalizing d with
  | nil => simp
  | cons x xs ih =>
      simp only [List.take_succ_cons, erase]
      split
      · simp [List.take_take]
      · cases d with
        | zero => simp
        | succ d => simpa using ih d

/-- Two ladders with the same best `d` entries still have them after the same upsert. -/
theorem take_upsert_congr {l m : List (K × V)} {d : Nat} (h : l.take d = m.take d) (k : K) (v : V) :
    (upsert r k v l).take d = (upsert r k v m).take d := by
  rw [take_upsert, h, ← take_upsert]

/-- Two ladders with the same best `d` entries still agree on the best `d - 1` after the same erase. -/
theorem take_erase_congr {l m : List (K × V)} {d : Nat} (h : l.take d = m.take d) (k : K) :
    (erase k l).take (d - 1) = (erase k m).take (d - 1) := by
  cases d with
  | zero => simp
  | succ d => rw [Nat.add_sub_cancel, take_erase, h, ← take_erase]

theorem take_writeBounded {n d : Nat} (hd : d ≤ n) (l : List (K × V)) (op : K × Option V) :
    (writeBounded r n l op).take d = (write r l op).take d := by
  rw [writeBounded, List.take_take, Nat.min_eq_left hd]

/-- What ties a bounded copy `b` to the tally of its history: they agree down to `n` less one level for
    each late erase. -/
structure Agrees (n : Nat) (b : List (K × V)) (t : Tally K V) : Prop where
  length_le : b.length ≤ n
  early     : t.overflowed = false → t.lateErases = 0
  top       : b.take (n - t.lateErases) = t.ladder.take (n - t.lateErases)

omit [DecidableEq K] in
/-- Before any overflow the copy is the whole ladder. -/
theorem Agrees.eq_of_fits {n : Nat} {b : List (K × V)} {t : Tally K V} (h : Agrees n b t)
    (ho : t.overflowed = false) (hfit : t.ladder.length ≤ n) : b = t.ladder := by
  have htop := h.top
  rwa [h.early ho, Nat.sub_zero, List.take_of_length_le h.length_le, List.take_of_length_le hfit] at htop

/-- One write keeps the agreement, and costs a level exactly when it is a late erase. -/
theorem Agrees.step {n : Nat} {b : List (K × V)} {t : Tally K V} (h : Agrees n b t)
    (op : K × Option V) : Agrees n (writeBounded r n b op) (Tally.step r n t op) := by
  obtain ⟨k, o⟩ := op
  refine ⟨List.length_take_le _ _, ?_, ?_⟩
  · intro ho
    have ho' : (t.overflowed || decide (n < t.ladder.length)) = false := ho
    have hearly := h.early (Bool.or_eq_false_iff.mp ho').1
    simp [Tally.step, ho', hearly]
  · rw [take_writeBounded (Nat.sub_le _ _)]
    cases o with
    | some v =>
        -- the best entries after an upsert come from as many before it
        have hcount : (Tally.step r n t (k, some v)).lateErases = t.lateErases := by simp [Tally.step]
        rw [hcount]
        exact take_upsert_congr h.top k v
    | none =>
        by_cases ho : (t.overflowed || decide (n < t.ladder.length)) = true
        · -- a late erase lets an entry from one level further down move up
          have hcount : (Tally.step r n t (k, none)).lateErases = t.lateErases + 1 := by
            simp [Tally.step, ho]
          rw [hcount, ← Nat.sub_sub]
          exact take_erase_congr h.top k
        · -- nothing has been dropped yet, so the copy is exact
          have ho' := Bool.or_eq_false_iff.mp (Bool.not_eq_true _ ▸ ho)
          have hfit : t.ladder.length ≤ n := Nat.not_lt.mp (of_decide_eq_false ho'.2)
          rw [h.eq_of_fits ho'.1 hfit]
          rfl

theorem agrees_replayBounded (n : Nat) (ops : List (K × Option V)) :
    Agrees n (replayBounded r n [] ops) (tally r n ops) := by
  induction ops using List.reverseRecOn with
  | nil => exact ⟨Nat.zero_le _, fun _ => rfl, rfl⟩
  | append_singleton ops op ih =>
      rw [replayBounded_snoc, tally_snoc]
      exact ih.step op

/-- **A bounded copy is right down to `n` less the late erases.** -/
theorem replayBounded_take (n : Nat) (ops : List (K × Option V)) :
    (replayBounded r n [] ops).take (n - lateErases r n ops)
      = (replay r [] ops).take (n - lateErases r n ops) := by
  have h := (agrees_replayBounded (r := r) n ops).top
  rwa [tally_ladder] at h

/-- Without late erases a bounded copy is the best `n` entries of the whole. -/
theorem replayBounded_eq_take {n : Nat} {ops : List (K × Option V)} (h : lateErases r n ops = 0) :
    replayBounded r n [] ops = (replay r [] ops).take n := by
  have htop := replayBounded_take (r := r) n ops
  rwa [h, Nat.sub_zero, List.take_of_length_le (length_replayBounded_le (Nat.zero_le n) ops)] at htop

/-- With fewer than `n` late erases a bounded copy has the right best entry. -/
theorem replayBounded_head? {n : Nat} {ops : List (K × Option V)} (h : lateErases r n ops < n) :
    (replayBounded r n [] ops).head? = (replay r [] ops).head? := by
  have htop := congrArg List.head? (replayBounded_take (r := r) n ops)
  obtain ⟨d, hd⟩ := Nat.exists_eq_succ_of_ne_zero (Nat.sub_ne_zero_of_lt h)
  simpa [hd, List.head?_take] using htop

/-- The tally has seen an overflow exactly when some proper prefix of the history holds more than `n`. -/
theorem tally_overflowed_iff {n : Nat} {ops : List (K × Option V)} :
    (tally r n ops).overflowed = true ↔
      ∃ j < ops.length, n < (replay r [] (ops.take j)).length := by
  induction ops using List.reverseRecOn with
  | nil => simp [tally, Tally.init]
  | append_singleton ops op ih =>
      have hstep : (tally r n (ops ++ [op])).overflowed
          = ((tally r n ops).overflowed || decide (n < (replay r [] ops).length)) := by
        rw [tally_snoc, ← tally_ladder]
        rfl
      rw [hstep, Bool.or_eq_true, ih, decide_eq_true_eq]
      constructor
      · rintro (⟨j, hj, hn⟩ | hn)
        · exact ⟨j, by simp; omega, by rwa [List.take_append_of_le_length (Nat.le_of_lt hj)]⟩
        · exact ⟨ops.length, by simp, by rwa [List.take_left']; rfl⟩
      · rintro ⟨j, hj, hn⟩
        rw [List.length_append, List.length_singleton] at hj
        rw [List.take_append_of_le_length (by omega)] at hn
        by_cases hlt : j < ops.length
        · exact Or.inl ⟨j, hlt, hn⟩
        · rw [List.take_of_length_le (by omega)] at hn
          exact Or.inr hn

theorem NoLateErase.of_snoc {n : Nat} {ops : List (K × Option V)} {op : K × Option V}
    (h : NoLateErase r n (ops ++ [op])) : NoLateErase r n ops := by
  intro i j k hj hi
  have hlt : i < ops.length := (List.getElem?_eq_some_iff.mp hi).1
  have := h i j k hj (by rw [List.getElem?_append_left hlt]; exact hi)
  rwa [List.take_append_of_le_length (by omega)] at this

theorem lateErases_eq_zero {n : Nat} {ops : List (K × Option V)} (h : NoLateErase r n ops) :
    lateErases r n ops = 0 := by
  induction ops using List.reverseRecOn with
  | nil => rfl
  | append_singleton ops op ih =>
      obtain ⟨k, o⟩ := op
      have hprev : (tally r n ops).lateErases = 0 := ih h.of_snoc
      -- an erase at the end after an overflow is what `NoLateErase` excludes
      have hstep : (tally r n (ops ++ [(k, o)])).overflowed = true → o ≠ none := by
        rintro hover rfl
        obtain ⟨j, hj, hn⟩ := tally_overflowed_iff.mp hover
        have hle := h ops.length j k (by simpa using Nat.le_of_lt_succ (by simpa using hj)) (by simp)
        omega
      rw [tally_snoc] at hstep
      show (tally r n (ops ++ [(k, o)])).lateErases = 0
      rw [tally_snoc]
      cases o with
      | some v => simp [Tally.step, hprev]
      | none =>
          have hover : ((tally r n ops).overflowed
              || decide (n < (tally r n ops).ladder.length)) = false := by
            by_contra hc
            exact hstep (Bool.of_not_eq_false hc) rfl
          simp only [Tally.step, hprev, hover]
          rfl

end Bounded

section BoundedOrder

variable [DecidableEq K] {r : K → K → Prop} [DecidableRel r] [IsStrictTotalOrder K r]

theorem sorted_replayBounded {n : Nat} {l : List (K × V)} (h : Sorted r l)
    (ops : List (K × Option V)) : Sorted r (replayBounded r n l ops) := by
  induction ops generalizing l with
  | nil => exact h
  | cons op ops ih => exact ih ((sorted_write h op).take n)

/-- A bounded copy holds no entry that the whole does not hold. -/
theorem mem_replay_of_mem_bounded {n : Nat} {ops : List (K × Option V)} {e : K × V}
    (he : e ∈ replayBounded r n [] ops) : e ∈ replay r [] ops := by
  induction ops using List.reverseRecOn generalizing e with
  | nil => exact he
  | append_singleton ops op ih =>
      rw [replayBounded_snoc] at he
      rw [replay_snoc, mem_write (sorted_replay sorted_nil ops)]
      rcases (mem_write (sorted_replayBounded sorted_nil ops)).mp (List.mem_of_mem_take he) with
        hnew | ⟨hne, hold⟩
      · exact Or.inl hnew
      · exact Or.inr ⟨hne, ih hold⟩

omit [IsStrictTotalOrder K r] in
/-- A copy whose original never outgrows the bound is the original. -/
theorem replayBounded_eq_replay {n : Nat} {l : List (K × V)} {ops : List (K × Option V)}
    (h : ∀ j, (replay r l (ops.take j)).length ≤ n) : replayBounded r n l ops = replay r l ops := by
  induction ops generalizing l with
  | nil => rfl
  | cons op ops ih =>
      have hfit : writeBounded r n l op = write r l op :=
        List.take_of_length_le (by simpa using h 1)
      rw [replayBounded_cons, replay_cons, hfit]
      exact ih (fun j => by simpa using h (j + 1))

omit [IsStrictTotalOrder K r] in
theorem length_le_length_upsert (k : K) (v : V) (l : List (K × V)) :
    l.length ≤ (upsert r k v l).length := by
  induction l with
  | nil => exact Nat.zero_le _
  | cons x xs ih =>
      unfold upsert
      split
      · exact Nat.le_refl _
      · split
        · exact Nat.le_succ _
        · exact Nat.succ_le_succ ih

omit [IsStrictTotalOrder K r] in
/-- A run of upserts that ends below the bound never met it: ladders do not shrink under upserts. -/
theorem replayBounded_eq_replay_of_lt {n : Nat} {l : List (K × V)} {ops : List (K × Option V)}
    (hup : ∀ op ∈ ops, op.2 ≠ none) (h : (replayBounded r n l ops).length < n) :
    replayBounded r n l ops = replay r l ops := by
  induction ops using List.reverseRecOn with
  | nil => rfl
  | append_singleton ops op ih =>
      obtain ⟨k, o⟩ := op
      cases o with
      | none => exact absurd rfl (hup (k, none) (by simp))
      | some v =>
          rw [replayBounded_snoc] at h ⊢
          -- an upsert that had been cut would have left exactly `n` entries
          have hfit : writeBounded r n (replayBounded r n l ops) (k, some v)
              = upsert r k v (replayBounded r n l ops) := by
            refine List.take_of_length_le ?_
            rw [writeBounded, List.length_take] at h
            exact Nat.le_of_lt (by omega)
          rw [hfit] at h ⊢
          have hlen := length_le_length_upsert (r := r) k v (replayBounded r n l ops)
          rw [replay_snoc, ← ih (fun op hop => hup op (by simp [hop])) (by omega)]
          rfl

/-- The keys of a run from scratch are keys of the same run from any ladder, so it is no longer. -/
theorem length_replay_nil_le {l : List (K × V)} (h : Sorted r l) (ops : List (K × Option V)) :
    (replay r [] ops).length ≤ (replay r l ops).length := by
  have hsub : replay r [] ops ⊆ replay r l ops := by
    rintro ⟨k, v⟩ he
    exact (mem_replay h).mpr (Or.inl (mem_replay_nil.mp he))
  have hnodup : (replay r [] ops).Nodup :=
    (sorted_replay (r := r) (V := V) sorted_nil ops).nodup_keys.of_map
  exact hnodup.length_le_of_subset hsub

/-- A run from scratch reaches the same ladder as the run from `l` exactly when it writes every key of `l`. -/
theorem replay_nil_eq_iff {l : List (K × V)} (h : Sorted r l) (ops : List (K × Option V)) :
    replay r [] ops = replay r l ops ↔ ∀ e ∈ l, lastWrite e.1 ops ≠ none := by
  constructor
  · -- an entry of `l` that is never written survives in one run and is missing in the other
    rintro heq ⟨k, v⟩ he hnone
    have hmem : (k, v) ∈ replay r [] ops := heq ▸ (mem_replay h).mpr (Or.inr ⟨hnone, he⟩)
    rw [mem_replay_nil, hnone] at hmem
    cases hmem
  · intro hall
    apply Sorted.ext (sorted_replay sorted_nil ops) (sorted_replay h ops)
    rintro ⟨k, v⟩
    rw [mem_replay_nil, mem_replay h]
    refine (or_iff_left ?_).symm
    rintro ⟨hnone, he⟩
    exact hall (k, v) he hnone

/-- The bounded run from scratch against an unbounded run that never outgrows the bound. -/
theorem replayBounded_nil_eq_iff {n : Nat} {l : List (K × V)} (h : Sorted r l) {ops : List (K × Option V)}
    (hfit : ∀ j, (replay r l (ops.take j)).length ≤ n) :
    replayBounded r n [] ops = replay r l ops ↔ ∀ e ∈ l, lastWrite e.1 ops ≠ none := by
  rw [replayBounded_eq_replay fun j => Nat.le_trans (length_replay_nil_le h _) (hfit j)]
  exact replay_nil_eq_iff h ops

end BoundedOrder

/-! ## Renaming keys

An injection of the keys that reflects the order carries a whole run over. -/

section Rename

variable {L : Type*} [DecidableEq K] [DecidableEq L] {r : K → K → Prop} [DecidableRel r]
  {s : L → L → Prop} [DecidableRel s] {f : K → L}

theorem map_upsert (hf : Function.Injective f) (hs : ∀ a b, s (f a) (f b) ↔ r a b) (k : K) (v : V)
    (l : List (K × V)) :
    (upsert r k v l).map (Prod.map f id) = upsert s (f k) v (l.map (Prod.map f id)) := by
  induction l with
  | nil => rfl
  | cons e es ih =>
      rw [List.map_cons]
      unfold upsert
      by_cases hk : e.1 = k
      · rw [if_pos hk, if_pos (show (Prod.map f id e).1 = f k from congrArg f hk)]
        rfl
      · rw [if_neg hk, if_neg (show ¬ (Prod.map f id e).1 = f k from fun heq => hk (hf heq))]
        by_cases hr : r k e.1
        · rw [if_pos hr, if_pos (show s (f k) (Prod.map f id e).1 from (hs _ _).mpr hr)]
          rfl
        · rw [if_neg hr, if_neg (show ¬ s (f k) (Prod.map f id e).1 from fun h => hr ((hs _ _).mp h)), List.map_cons, ih]

theorem map_erase (hf : Function.Injective f) (k : K) (l : List (K × V)) :
    (erase k l).map (Prod.map f id) = erase (f k) (l.map (Prod.map f id)) := by
  induction l with
  | nil => rfl
  | cons e es ih =>
      rw [List.map_cons]
      unfold erase
      by_cases hk : e.1 = k
      · rw [if_pos hk, if_pos (show (Prod.map f id e).1 = f k from congrArg f hk)]
      · rw [if_neg hk, if_neg (show ¬ (Prod.map f id e).1 = f k from fun heq => hk (hf heq)), List.map_cons, ih]

theorem map_write (hf : Function.Injective f) (hs : ∀ a b, s (f a) (f b) ↔ r a b) (l : List (K × V))
    (op : K × Option V) :
    (write r l op).map (Prod.map f id) = write s (l.map (Prod.map f id)) (Prod.map f id op) := by
  obtain ⟨k, o⟩ := op
  cases o with
  | none   => exact map_erase hf k l
  | some v => exact map_upsert hf hs k v l

/-- **A run under renamed keys is the renamed run.** -/
theorem map_replay (hf : Function.Injective f) (hs : ∀ a b, s (f a) (f b) ↔ r a b) (l : List (K × V))
    (ops : List (K × Option V)) :
    (replay r l ops).map (Prod.map f id)
      = replay s (l.map (Prod.map f id)) (ops.map (Prod.map f id)) := by
  induction ops generalizing l with
  | nil => rfl
  | cons op ops ih =>
      rw [replay_cons, List.map_cons, replay_cons, ih, map_write hf hs]

end Rename

/-! ## Writes by position -/

section Position

variable [DecidableEq K] {r : K → K → Prop} [DecidableRel r] [IsStrictTotalOrder K r]

/-- Overwriting in place, at the position of the key. -/
theorem upsert_eq_set {l : List (K × V)} (h : Sorted r l) {k : K} {i : Nat}
    (hi : l.findIdx? (fun e => e.1 = k) = some i) (v : V) : upsert r k v l = l.set i (k, v) := by
  induction l generalizing i with
  | nil => cases hi
  | cons x xs ih =>
      rw [List.findIdx?_cons] at hi
      unfold upsert
      by_cases hx : x.1 = k
      · simp only [hx, decide_true, if_true, Option.some.injEq] at hi
        rw [if_pos hx, ← hi, List.set_cons_zero]
      · -- the key is further down, so the head beats it
        simp only [hx, decide_false, Bool.false_eq_true, if_false, Option.map_eq_some_iff] at hi
        obtain ⟨j, hj, rfl⟩ := hi
        obtain ⟨hlt, hkey, _⟩ := List.findIdx?_eq_some_iff_getElem.mp hj
        have hbetter : r x.1 k := by
          have hhead := h.head_better _ (List.getElem_mem hlt)
          rwa [of_decide_eq_true hkey] at hhead
        have hnot : ¬ r k x.1 := fun hk => irrefl_of r k (trans_of r hk hbetter)
        rw [if_neg hx, if_neg hnot, ih h.tail hj, List.set_cons_succ]

omit [DecidableRel r] [IsStrictTotalOrder K r] in
/-- Removing at the position of the key. -/
theorem erase_eq_eraseIdx {l : List (K × V)} {k : K} {i : Nat}
    (hi : l.findIdx? (fun e => e.1 = k) = some i) : erase k l = l.eraseIdx i := by
  induction l generalizing i with
  | nil => cases hi
  | cons x xs ih =>
      rw [List.findIdx?_cons] at hi
      unfold erase
      by_cases hx : x.1 = k
      · simp only [hx, decide_true, if_true, Option.some.injEq] at hi
        rw [if_pos hx, ← hi, List.eraseIdx_cons_zero]
      · simp only [hx, decide_false, Bool.false_eq_true, if_false, Option.map_eq_some_iff] at hi
        obtain ⟨j, hj, rfl⟩ := hi
        rw [if_neg hx, ih hj, List.eraseIdx_cons_succ]

omit [DecidableRel r] [IsStrictTotalOrder K r] in
theorem erase_of_notMem {l : List (K × V)} {k : K} (hk : ∀ e ∈ l, e.1 ≠ k) : erase k l = l := by
  induction l with
  | nil => rfl
  | cons x xs ih =>
      unfold erase
      rw [if_neg (hk x List.mem_cons_self), ih fun e he => hk e (List.mem_cons_of_mem _ he)]

/-- A new key goes behind all that beat it. -/
theorem upsert_of_notMem {l : List (K × V)} {k : K} (hk : ∀ e ∈ l, e.1 ≠ k) (v : V) :
    upsert r k v l = l.takeWhile (fun e => r e.1 k) ++ (k, v) :: l.dropWhile (fun e => r e.1 k) := by
  induction l with
  | nil => rfl
  | cons x xs ih =>
      have hx : x.1 ≠ k := hk x List.mem_cons_self
      unfold upsert
      rw [if_neg hx]
      by_cases hbetter : r k x.1
      · have hnot : ¬ r x.1 k := fun hxk => irrefl_of r k (trans_of r hbetter hxk)
        simp [hbetter, hnot]
      · have hxk : r x.1 k := by
          rcases trichotomous_of r x.1 k with hlt | heq | hgt
          · exact hlt
          · exact absurd heq hx
          · exact absurd hgt hbetter
        rw [if_neg hbetter, ih fun e he => hk e (List.mem_cons_of_mem _ he)]
        simp [hxk]

end Position

/-! ## Ladders as maps -/

section Map

variable [DecidableEq K] {r : K → K → Prop} [DecidableRel r] [IsStrictTotalOrder K r]

/-- The ladder holds exactly the entries of the map. -/
def Lists (l : List (K × V)) (m : K → Option V) : Prop := ∀ k v, (k, v) ∈ l ↔ m k = some v

/-- One write in a map. -/
def assign (m : K → Option V) (op : K × Option V) : K → Option V := Function.update m op.1 op.2

omit [DecidableEq K] in
theorem lists_nil : Lists ([] : List (K × V)) fun _ => none := by
  intro k v
  simp

/-- **A write in the ladder is the write in the map.** -/
theorem Lists.write {l : List (K × V)} {m : K → Option V} (h : Lists l m) (hl : Sorted r l)
    (op : K × Option V) : Lists (write r l op) (assign m op) := by
  intro k v
  rw [mem_write hl, assign]
  by_cases hk : k = op.1
  · rw [hk, Function.update_self]
    simp
  · rw [Function.update_of_ne hk, h k v]
    simp [hk]

theorem Lists.replay {l : List (K × V)} {m : K → Option V} (h : Lists l m) (hl : Sorted r l)
    (ops : List (K × Option V)) : Lists (replay r l ops) (ops.foldl assign m) := by
  induction ops generalizing l m with
  | nil => exact h
  | cons op ops ih => exact ih (h.write hl op) (sorted_write hl op)

omit [DecidableEq K] [DecidableRel r] in
/-- A map has one ladder. -/
theorem Lists.eq {l l' : List (K × V)} {m : K → Option V} (h : Lists l m) (h' : Lists l' m) (hl : Sorted r l)
    (hl' : Sorted r l') : l = l' := by
  apply hl.ext hl'
  rintro ⟨k, v⟩
  rw [h k v, h' k v]

end Map

/-! ## The best of a list -/

section Best

variable {α : Type*} (r : K → K → Prop) [DecidableRel r] (key : α → K)

/-- The better of two, the first if the other does not beat it. -/
def prefer (best x : α) : α := if r (key x) (key best) then x else best

variable {r key} [IsStrictOrder K r]

/-- **What is preferred** is the start if nothing in the list is better, and else what nothing in the list is better
    than. -/
theorem foldl_prefer (start : α) (l : List α) :
    (l.foldl (prefer r key) start = start ∧ ∀ x ∈ l, ¬ r (key x) (key start)) ∨
      (r (key (l.foldl (prefer r key) start)) (key start) ∧ l.foldl (prefer r key) start ∈ l ∧
        ∀ x ∈ l, ¬ r (key x) (key (l.foldl (prefer r key) start))) := by
  induction l using List.reverseRecOn with
  | nil => exact .inl ⟨rfl, fun x hx => absurd hx List.not_mem_nil⟩
  | append_singleton l x ih =>
      rw [List.foldl_concat]
      generalize l.foldl (prefer r key) start = best at ih ⊢
      unfold prefer
      by_cases hchange : r (key x) (key best)
      · -- what beats the new best beats the old one
        rw [if_pos hchange]
        have hnone : ∀ y ∈ l, ¬ r (key y) (key best) := by
          rcases ih with ⟨rfl, hnone⟩ | ⟨-, -, hnone⟩ <;> exact hnone
        have hstart : r (key x) (key start) := by
          rcases ih with ⟨rfl, -⟩ | ⟨hbetter, -, -⟩
          · exact hchange
          · exact trans_of r hchange hbetter
        exact .inr ⟨hstart, List.mem_append_right _ (List.mem_singleton_self _), List.forall_mem_append.mpr
          ⟨fun y hy hbeats => hnone y hy (trans_of r hbeats hchange), List.forall_mem_singleton.mpr (irrefl_of r _)⟩⟩
      · rw [if_neg hchange]
        rcases ih with ⟨rfl, hnone⟩ | ⟨hbetter, hmem, hnone⟩
        · exact .inl ⟨rfl, List.forall_mem_append.mpr ⟨hnone, List.forall_mem_singleton.mpr hchange⟩⟩
        · exact .inr ⟨hbetter, List.mem_append_left _ hmem,
            List.forall_mem_append.mpr ⟨hnone, List.forall_mem_singleton.mpr hchange⟩⟩

end Best

end Ladder
