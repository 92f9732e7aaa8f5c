import Mathlib.Order.Basic
import Mathlib.Data.List.Basic

/-!
# `Library.Stamped` — streams of stamped items

An item carries a stamp, and a test says which items may come directly after which stamp. A list is *linked
from* a stamp when every item passes the test against the stamp before it. Sequence numbers, previous-id
fields and hash chains all have this form; the test and the stamp are parameters.

Contents:
* `Linked`, `lastStamp` — the definitions, their behaviour under append;
* `Linked.imp` — passing from one test to another that holds of the items actually met;
* `Linked.lt_of_mem` — tests that let stamps only grow.
-/

namespace Stamped

variable {ι α : Type*}

/-- Every item passes the test against the stamp of the one before it, the first one against `i`. -/
def Linked (test : ι → α → Prop) (stamp : α → ι) : ι → List α → Prop
  | _, []      => True
  | i, a :: as => test i a ∧ Linked test stamp (stamp a) as

/-- The stamp reached at the end of the list. -/
def lastStamp (stamp : α → ι) (i : ι) : List α → ι
  | []      => i
  | a :: as => lastStamp stamp (stamp a) as

instance Linked.decidable (test : ι → α → Prop) (stamp : α → ι) [∀ i a, Decidable (test i a)] :
    (i : ι) → (as : List α) → Decidable (Linked test stamp i as)
  | _, []      => isTrue trivial
  | i, a :: as => @instDecidableAnd (test i a) _ _ (Linked.decidable test stamp (stamp a) as)

variable {test test' : ι → α → Prop} {stamp : α → ι} {i : ι} {a : α} {as bs : List α}

@[simp] theorem linked_nil : Linked test stamp i [] := trivial

@[simp] theorem linked_cons :
    Linked test stamp i (a :: as) ↔ test i a ∧ Linked test stamp (stamp a) as := Iff.rfl

@[simp] theorem lastStamp_nil : lastStamp stamp i [] = i := rfl

@[simp] theorem lastStamp_cons : lastStamp stamp i (a :: as) = lastStamp stamp (stamp a) as := rfl

theorem lastStamp_append : lastStamp stamp i (as ++ bs) = lastStamp stamp (lastStamp stamp i as) bs := by
  induction as generalizing i with
  | nil => rfl
  | cons a as ih => exact ih

@[simp] theorem lastStamp_snoc : lastStamp stamp i (as ++ [a]) = stamp a := by
  rw [lastStamp_append]
  rfl

/-- A list is linked when each part is, the second from where the first ends. -/
theorem linked_append :
    Linked test stamp i (as ++ bs) ↔
      Linked test stamp i as ∧ Linked test stamp (lastStamp stamp i as) bs := by
  induction as generalizing i with
  | nil => simp
  | cons a as ih =>
      show test i a ∧ Linked test stamp (stamp a) (as ++ bs) ↔ _
      rw [ih, and_assoc.symm]
      rfl

/-- The last item decides where a nonempty list ends. -/
theorem lastStamp_of_getLast? (h : as.getLast? = some a) : lastStamp stamp i as = stamp a := by
  obtain ⟨bs, rfl⟩ := List.getLast?_eq_some_iff.mp h
  exact lastStamp_snoc

/-- Another test that holds wherever the first one did, on the items of this list. -/
theorem Linked.imp (himp : ∀ i, ∀ a ∈ as, test i a → test' i a) (h : Linked test stamp i as) :
    Linked test' stamp i as := by
  induction as generalizing i with
  | nil => trivial
  | cons a as ih =>
      obtain ⟨ha, has⟩ := h
      exact ⟨himp i a (List.mem_cons_self ..) ha,
        ih (fun i b hb => himp i b (List.mem_cons_of_mem _ hb)) has⟩

/-- What the test says of an element alone holds of all of them. -/
theorem Linked.forall_mem {P : α → Prop} (hP : ∀ i a, test i a → P a) (h : Linked test stamp i as) :
    ∀ a ∈ as, P a := by
  induction as generalizing i with
  | nil => simp
  | cons a as ih => exact List.forall_mem_cons.mpr ⟨hP i a h.1, ih h.2⟩

theorem Linked.and (h : Linked test stamp i as) (h' : Linked test' stamp i as) :
    Linked (fun i a => test i a ∧ test' i a) stamp i as := by
  induction as generalizing i with
  | nil => trivial
  | cons a as ih => exact ⟨⟨h.1, h'.1⟩, ih h.2 h'.2⟩

/-! ## Growing stamps -/

section Growing

variable [Preorder ι]

/-- Under a test that makes the stamp grow, every item is stamped past the start. -/
theorem Linked.lt_of_mem (hlt : ∀ i a, test i a → i < stamp a) (h : Linked test stamp i as) :
    ∀ b ∈ as, i < stamp b := by
  induction as generalizing i with
  | nil => intro b hb; cases hb
  | cons a as ih =>
      intro b hb
      rcases List.mem_cons.mp hb with rfl | hb
      · exact hlt i b h.1
      · exact lt_trans (hlt i a h.1) (ih h.2 b hb)

end Growing

end Stamped
