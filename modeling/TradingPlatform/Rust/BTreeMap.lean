import TradingPlatform.Library.Ladder
import Mathlib.Order.Lattice

/-!
# `Rust.BTreeMap` — ordered maps

A `BTreeMap` is the list of its entries in the order of the keys, which is how it is iterated.
-/

namespace TradingPlatform
namespace Rust

open Ladder

structure BTreeMap (K V : Type) [LinearOrder K] where
  entries : List (K × V)
  ordered : Sorted (fun k k' => k < k') entries

namespace BTreeMap

variable {K V : Type} [LinearOrder K]

def new : BTreeMap K V := ⟨[], sorted_nil⟩

/-- The value of a key that is there is replaced. -/
def insert (m : BTreeMap K V) (k : K) (v : V) : BTreeMap K V :=
  ⟨upsert (fun k k' => k < k') k v m.entries, sorted_upsert m.ordered k v⟩

def remove (m : BTreeMap K V) (k : K) : BTreeMap K V :=
  ⟨erase k m.entries, m.ordered.sublist (erase_sublist k m.entries)⟩

@[simp] theorem entries_new : (new : BTreeMap K V).entries = [] := rfl

@[simp] theorem entries_insert (m : BTreeMap K V) (k : K) (v : V) :
    (m.insert k v).entries = write (fun k k' => k < k') m.entries (k, some v) := rfl

@[simp] theorem entries_remove (m : BTreeMap K V) (k : K) :
    (m.remove k).entries = write (fun k k' => k < k') m.entries (k, none) := rfl

end BTreeMap

end Rust
end TradingPlatform
