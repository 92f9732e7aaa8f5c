import Mathlib.Data.List.Basic
import Mathlib.Logic.Function.Basic

/-!
# `Library.Interning` — names and the ids they are known by

Names and ids are two lookups that undo each other (`Inverse`), and they still do after a new name has been entered
under an id that is free (`Inverse.update`). An `Interner` keeps its names in a list and takes the length of the list
for the next id, so that the id is always free (`Inverse.concat`).
-/

namespace Interning

variable {κ ι : Type*}

/-- Two lookups that undo each other. -/
def Inverse (toId : κ → Option ι) (ofId : ι → Option κ) : Prop := ∀ key id, toId key = some id ↔ ofId id = some key

section Lookups

variable {toId : κ → Option ι} {ofId : ι → Option κ}

theorem inverse_empty : Inverse (fun _ : κ => none) (fun _ : ι => none) := fun _ _ => ⟨nofun, nofun⟩

/-- Names with the same id are the same. -/
theorem Inverse.injective (h : Inverse toId ofId) {key key' : κ} {id : ι} (hid : toId key = some id)
    (hid' : toId key' = some id) : key = key' := by
  rw [h] at hid hid'
  exact Option.some.inj (hid.symm.trans hid')

/-- **A new name** under a free id. -/
theorem Inverse.update [DecidableEq κ] [DecidableEq ι] (h : Inverse toId ofId) {key : κ} {id : ι}
    (hkey : toId key = none) (hid : ofId id = none) :
    Inverse (Function.update toId key (some id)) (Function.update ofId id (some key)) := by
  intro key' id'
  by_cases hsame : key' = key
  · subst hsame
    rw [Function.update_self]
    by_cases hsame' : id' = id
    · rw [hsame', Function.update_self]
      exact iff_of_true rfl rfl
    · -- the name had no id before, so no other id has it
      rw [Function.update_of_ne hsame', ← h, hkey]
      exact iff_of_false (fun heq => hsame' (Option.some.inj heq).symm) nofun
  · rw [Function.update_of_ne hsame]
    by_cases hsame' : id' = id
    · rw [hsame', Function.update_self, h, hid]
      exact iff_of_false nofun fun heq => hsame (Option.some.inj heq).symm
    · rw [Function.update_of_ne hsame']
      exact h key' id'

/-- A list with one more element, as a lookup. -/
theorem getElem?_concat (keys : List κ) (key : κ) :
    (fun id => (keys ++ [key])[id]?) = Function.update (fun id => keys[id]?) keys.length (some key) := by
  funext id
  by_cases hsame : id = keys.length
  · rw [hsame, Function.update_self, List.getElem?_concat_length]
  · rw [Function.update_of_ne hsame]
    rcases Nat.lt_or_gt_of_ne hsame with hlt | hgt
    · exact List.getElem?_append_left hlt
    · have hlength : (keys ++ [key]).length ≤ id := by
        rw [List.length_append]
        exact hgt
      rw [List.getElem?_eq_none hlength, List.getElem?_eq_none (Nat.le_of_lt hgt)]

/-- A new name at the end of the list of names. -/
theorem Inverse.concat [DecidableEq κ] {toId : κ → Option Nat} {keys : List κ}
    (h : Inverse toId fun id => keys[id]?) {key : κ} (hkey : toId key = none) :
    Inverse (Function.update toId key (some keys.length)) fun id => (keys ++ [key])[id]? := by
  rw [getElem?_concat]
  exact h.update hkey (List.getElem?_eq_none (Nat.le_refl _))

end Lookups

/-! ## Ids by position -/

/-- The names entered so far, in order, and their positions. -/
structure Interner (κ : Type*) where
  toId : κ → Option Nat
  ofId : List κ

def Interner.empty : Interner κ := { toId := fun _ => none, ofId := [] }

/-- Map and list are in step. -/
def Interner.Faithful (interner : Interner κ) : Prop := Inverse interner.toId fun id => interner.ofId[id]?

theorem Interner.faithful_empty : (empty : Interner κ).Faithful := fun _ _ => ⟨nofun, nofun⟩

variable [DecidableEq κ]

/-- The id of a name, which is entered if it is new. -/
def Interner.intern (interner : Interner κ) (key : κ) : Interner κ × Nat :=
  match interner.toId key with
  | some id => (interner, id)
  | none    =>
      ({ toId := Function.update interner.toId key (some interner.ofId.length), ofId := interner.ofId ++ [key] },
        interner.ofId.length)

variable {interner : Interner κ} {key : κ}

theorem Interner.intern_known {id : Nat} (h : interner.toId key = some id) : interner.intern key = (interner, id) := by
  unfold intern
  rw [h]

theorem Interner.intern_new (h : interner.toId key = none) :
    interner.intern key =
      ({ toId := Function.update interner.toId key (some interner.ofId.length), ofId := interner.ofId ++ [key] },
        interner.ofId.length) := by
  unfold intern
  rw [h]

theorem Interner.Faithful.intern (h : interner.Faithful) (key : κ) : (interner.intern key).1.Faithful := by
  cases hkey : interner.toId key with
  | some id =>
      rw [intern_known hkey]
      exact h
  | none =>
      rw [intern_new hkey]
      exact Inverse.concat h hkey

/-- The name is known then, and no other is new. -/
theorem Interner.isSome_toId_intern (interner : Interner κ) (key key' : κ) :
    ((interner.intern key).1.toId key').isSome = true ↔ key' = key ∨ (interner.toId key').isSome = true := by
  cases hkey : interner.toId key with
  | some id =>
      rw [intern_known hkey]
      refine ⟨.inr, ?_⟩
      rintro (rfl | hknown)
      · exact Option.isSome_iff_exists.mpr ⟨id, hkey⟩
      · exact hknown
  | none =>
      rw [intern_new hkey]
      dsimp only
      by_cases hsame : key' = key
      · rw [hsame, Function.update_self]
        exact iff_of_true rfl (.inl rfl)
      · rw [Function.update_of_ne hsame]
        exact ⟨.inr, fun h => h.resolve_left hsame⟩

end Interning
