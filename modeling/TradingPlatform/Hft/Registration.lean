import TradingPlatform.Hft.Integration
import TradingPlatform.Library.Interning
import TradingPlatform.Library.Machine
import Mathlib.Data.Finset.Card

/-!
# `Hft.Registration` — symbols and their ids

`register_symbol` enters a new symbol in the map and in the list before it writes the tick size. While there is room
the three containers stay in step (`Numbered`). The symbol after the last one is entered, and only then the write
panics, so registration is injective and atomic exactly for sequences with room for all their symbols
(`registration_sound_iff`).
-/

namespace TradingPlatform
namespace Hft
namespace HFTOrderBookProcessor

open Machine

/-- The caller's view of one call: the processor it leaves, and the id it returned or the panic. -/
def register (p : HFTOrderBookProcessor) (call : String × ℚ) : HFTOrderBookProcessor × List (Except Panic Nat) :=
  ((p.registerSymbol call.1 call.2).1, [(p.registerSymbol call.1 call.2).2])

/-- What one call should do. -/
structure Sound (p : HFTOrderBookProcessor) (call : String × ℚ) : Prop where
  returned  : ∀ id, (p.registerSymbol call.1 call.2).2 = .ok id →
    id < maxSymbols ∧ (p.registerSymbol call.1 call.2).1.symbolToId call.1 = some id
  injective : ∀ symbol symbol' id, (p.registerSymbol call.1 call.2).1.symbolToId symbol = some id →
    (p.registerSymbol call.1 call.2).1.symbolToId symbol' = some id → symbol = symbol'
  back      : ∀ symbol id, (p.registerSymbol call.1 call.2).1.symbolToId symbol = some id →
    (p.registerSymbol call.1 call.2).1.idToSymbol[id]? = some symbol
  atomic    : ∀ panic, (p.registerSymbol call.1 call.2).2 = .error panic →
    (p.registerSymbol call.1 call.2).1.symbolToId = p.symbolToId ∧
    (p.registerSymbol call.1 call.2).1.idToSymbol = p.idToSymbol ∧
    (p.registerSymbol call.1 call.2).1.tickSizes = p.tickSizes

/-! ## The containers in step -/

/-- The map is the list read backwards, and the list fits the tick sizes. -/
structure Numbered (p : HFTOrderBookProcessor) : Prop where
  ids   : ∀ symbol id, p.symbolToId symbol = some id ↔ p.idToSymbol[id]? = some symbol
  ticks : p.tickSizes.length = maxSymbols
  inUse : p.idToSymbol.length ≤ maxSymbols

theorem numbered_new : Numbered new where
  ids   := by
    intro symbol id
    exact ⟨nofun, nofun⟩
  ticks := List.length_replicate
  inUse := Nat.zero_le _

variable {p : HFTOrderBookProcessor}

theorem Numbered.injective (h : Numbered p) {symbol symbol' : String} {id : Nat} (hid : p.symbolToId symbol = some id)
    (hid' : p.symbolToId symbol' = some id) : symbol = symbol' :=
  Interning.Inverse.injective h.ids hid hid'

theorem Numbered.lt (h : Numbered p) {symbol : String} {id : Nat} (hid : p.symbolToId symbol = some id) :
    id < p.idToSymbol.length :=
  (List.getElem?_eq_some_iff.mp ((h.ids symbol id).mp hid)).1

theorem Numbered.mem_iff (h : Numbered p) {symbol : String} :
    symbol ∈ p.idToSymbol ↔ ∃ id, p.symbolToId symbol = some id := by
  rw [List.mem_iff_getElem?]
  exact exists_congr fun id => (h.ids symbol id).symm

/-- No symbol is listed twice. -/
theorem Numbered.nodup (h : Numbered p) : p.idToSymbol.Nodup := by
  refine List.nodup_iff_injective_getElem.mpr ?_
  intro i j heq
  have hi := (h.ids _ _).mpr (List.getElem?_eq_getElem i.2)
  have hj := (h.ids _ _).mpr (List.getElem?_eq_getElem j.2)
  rw [show p.idToSymbol[i.1] = p.idToSymbol[j.1] from heq] at hi
  exact Fin.ext (Option.some.inj (hi.symm.trans hj))

/-- A symbol that is known is found again. -/
theorem registerSymbol_known {symbol : String} {id : Nat} (hid : p.symbolToId symbol = some id) (tickSize : ℚ) :
    p.registerSymbol symbol tickSize = (p, .ok id) := by
  unfold registerSymbol
  rw [hid]

/-- A new symbol gets the next id while there is room. -/
theorem Numbered.room (h : Numbered p) {symbol : String} (hnew : p.symbolToId symbol = none)
    (hroom : p.idToSymbol.length < maxSymbols) (tickSize : ℚ) :
    ∃ p', p.registerSymbol symbol tickSize = (p', .ok p.idToSymbol.length) ∧ Numbered p' ∧
      p'.symbolToId symbol = some p.idToSymbol.length ∧ p'.idToSymbol = p.idToSymbol ++ [symbol] := by
  have hsmall : p.idToSymbol.length % 2 ^ 16 = p.idToSymbol.length :=
    Nat.mod_eq_of_lt (Nat.lt_trans hroom (by decide))
  have hlt : p.idToSymbol.length < p.tickSizes.length := h.ticks ▸ hroom
  unfold registerSymbol
  rw [hnew]
  simp only [hsmall, if_pos hlt]
  refine ⟨_, rfl, ⟨?_, ?_, ?_⟩, Function.update_self .., rfl⟩
  · exact Interning.Inverse.concat h.ids hnew
  · show (p.tickSizes.set _ _).length = _
    rw [List.length_set]
    exact h.ticks
  · show (p.idToSymbol ++ [symbol]).length ≤ _
    rw [List.length_append]
    exact hroom

/-- Without room the symbol is entered and the write panics. -/
theorem Numbered.full (h : Numbered p) {symbol : String} (hnew : p.symbolToId symbol = none)
    (hfull : maxSymbols ≤ p.idToSymbol.length) (tickSize : ℚ) :
    (p.registerSymbol symbol tickSize).2 = .error .indexOutOfBounds ∧
    (p.registerSymbol symbol tickSize).1.idToSymbol = p.idToSymbol ++ [symbol] := by
  have hlength : p.idToSymbol.length = maxSymbols := Nat.le_antisymm h.inUse hfull
  have hbeyond : ¬ p.idToSymbol.length % 2 ^ 16 < p.tickSizes.length := by
    rw [h.ticks, hlength]
    decide
  unfold registerSymbol
  rw [hnew]
  dsimp only
  rw [if_neg hbeyond]
  exact ⟨rfl, rfl⟩

/-! ## One call -/

/-- A call that leaves the containers in step and returns the id of its symbol did what it should. -/
theorem sound_of_numbered {p' : HFTOrderBookProcessor} {call : String × ℚ} {id : Nat}
    (heq : p.registerSymbol call.1 call.2 = (p', .ok id)) (h : Numbered p') (hid : p'.symbolToId call.1 = some id) :
    Sound p call := by
  refine ⟨?_, ?_, ?_, ?_⟩
  · rw [heq]
    rintro id' hreturned
    obtain rfl : id = id' := Except.ok.inj hreturned
    exact ⟨Nat.lt_of_lt_of_le (h.lt hid) h.inUse, hid⟩
  · rw [heq]
    intro symbol symbol' id' hsymbol hsymbol'
    exact h.injective hsymbol hsymbol'
  · rw [heq]
    intro symbol id' hsymbol
    exact (h.ids symbol id').mp hsymbol
  · rw [heq]
    intro panic hpanic
    cases hpanic

/-- **A call** in step: it is sound and stays in step, its symbol is listed then and no other is new; or it has no
    room and is not sound. -/
theorem Numbered.step (h : Numbered p) (call : String × ℚ) :
    (Sound p call ∧ Numbered (register p call).1 ∧
      ((register p call).1.idToSymbol.toFinset = insert call.1 p.idToSymbol.toFinset)) ∨
    (¬ Sound p call ∧ call.1 ∉ p.idToSymbol ∧ p.idToSymbol.length = maxSymbols) := by
  cases hid : p.symbolToId call.1 with
  | some id =>
      have heq := registerSymbol_known hid call.2
      have hmem : call.1 ∈ p.idToSymbol.toFinset := List.mem_toFinset.mpr (h.mem_iff.mpr ⟨id, hid⟩)
      refine .inl ⟨sound_of_numbered heq h hid, ?_, ?_⟩
      · unfold register
        rw [heq]
        exact h
      · unfold register
        rw [heq, Finset.insert_eq_of_mem hmem]
  | none =>
      rcases Nat.lt_or_ge p.idToSymbol.length maxSymbols with hroom | hfull
      · obtain ⟨p', heq, h', hid', hlist⟩ := h.room hid hroom call.2
        refine .inl ⟨sound_of_numbered heq h' hid', ?_, ?_⟩
        · unfold register
          rw [heq]
          exact h'
        · unfold register
          rw [heq, hlist, List.toFinset_append, Finset.union_comm]
          rfl
      · obtain ⟨hpanic, hlist⟩ := h.full hid hfull call.2
        refine .inr ⟨fun hsound => ?_, fun hmem => ?_, Nat.le_antisymm h.inUse hfull⟩
        · have hkept := (hsound.atomic _ hpanic).2.1
          rw [hlist] at hkept
          exact absurd hkept (by simp)
        · obtain ⟨id, hknown⟩ := h.mem_iff.mp hmem
          rw [hid] at hknown
          cases hknown

/-! ## Sequences of calls -/

/-- A sequence of calls is sound when there is room for its symbols and those that are registered. -/
theorem Numbered.guarded_iff (h : Numbered p) (calls : List (String × ℚ)) :
    Guarded register Sound p calls ↔ (p.idToSymbol.toFinset ∪ (calls.map Prod.fst).toFinset).card ≤ maxSymbols := by
  induction calls generalizing p with
  | nil =>
      have hcard := List.toFinset_card_le p.idToSymbol
      simp only [Guarded, List.map_nil, List.toFinset_nil, Finset.union_empty, true_iff]
      exact Nat.le_trans hcard h.inUse
  | cons call calls ih =>
      unfold Guarded
      rw [List.map_cons, List.toFinset_cons, Finset.union_insert, ← Finset.insert_union]
      rcases h.step call with ⟨hsound, hnext, hlisted⟩ | ⟨hnot, hnew, hfull⟩
      · rw [and_iff_right hsound, ih hnext, hlisted]
      · -- the symbols listed already are as many as there is room for
        refine iff_of_false (fun hall => hnot hall.1) (Nat.not_le.mpr ?_)
        have hcard : (insert call.1 p.idToSymbol.toFinset).card = maxSymbols + 1 := by
          rw [Finset.card_insert_of_notMem (by rwa [List.mem_toFinset]),
            List.toFinset_card_of_nodup h.nodup, hfull]
        have hsub : insert call.1 p.idToSymbol.toFinset ⊆
            insert call.1 p.idToSymbol.toFinset ∪ (calls.map Prod.fst).toFinset := Finset.subset_union_left
        have hle := Finset.card_le_card hsub
        omega

/-- **Registration is injective and atomic**, at every call of a sequence, exactly when the sequence names at most
    `MAX_SYMBOLS` symbols. -/
theorem registration_sound_iff (calls : List (String × ℚ)) :
    Guarded register Sound new calls ↔ (calls.map Prod.fst).toFinset.card ≤ maxSymbols := by
  have hempty : new.idToSymbol.toFinset = ∅ := rfl
  rw [numbered_new.guarded_iff calls, hempty, Finset.empty_union]

/-! Symbols of three letters, more of them than there is room for. -/

def letter (n : Nat) : Char := Char.ofNat ('A'.toNat + n % 26)

def ticker (n : Nat) : String := String.ofList [letter (n / 676), letter (n / 26), letter n]

theorem toNat_letter (n : Nat) : (letter n).toNat = 65 + n % 26 := by
  have hall : ∀ m < 26, (Char.ofNat ('A'.toNat + m)).toNat = 65 + m := by decide
  exact hall _ (Nat.mod_lt _ (by decide))

theorem ticker_injective {n m : Nat} (hn : n < 17576) (hm : m < 17576) (h : ticker n = ticker m) : n = m := by
  have hletters := congrArg (fun s => s.toList.map Char.toNat) h
  simp only [ticker, String.toList_ofList, List.map_cons, List.map_nil, toNat_letter, List.cons.injEq] at hletters
  omega

/-- One call for each of 2049 symbols: the last one panics and leaves the symbol behind. -/
def tooManyCalls : List (String × ℚ) := (List.range 2049).map fun n => (ticker n, 1 / 100)

theorem not_registration_sound : ¬ ∀ calls : List (String × ℚ), Guarded register Sound new calls := by
  intro h
  obtain ⟨calls, hcalls⟩ : ∃ calls, calls = tooManyCalls := ⟨_, rfl⟩
  have hcard := (numbered_new.guarded_iff calls).mp (h calls)
  have hnames : tooManyCalls.map Prod.fst = (List.range 2049).map ticker := by
    unfold tooManyCalls
    rw [List.map_map]
    exact List.map_congr_left fun n _ => rfl
  have hnodup : ((List.range 2049).map ticker).Nodup := by
    refine List.Nodup.map_on (fun n hn m hm heq => ?_) List.nodup_range
    rw [List.mem_range] at hn hm
    exact ticker_injective (by omega) (by omega) heq
  have hempty : new.idToSymbol.toFinset = ∅ := rfl
  rw [hempty, Finset.empty_union, hcalls, hnames, List.toFinset_card_of_nodup hnodup, List.length_map,
    List.length_range] at hcard
  exact absurd hcard (by decide)

/-! ## Symbols the feeder has registered -/

/-- A registration that returned an id had room, or the symbol was known. -/
theorem Registry.registerSymbol (hp : Registry p) {symbol : String} {p' : HFTOrderBookProcessor} {id : Nat}
    (h : p.registerSymbol symbol (tickSizeFor symbol) = (p', .ok id)) : Registry p' := by
  rcases Nat.lt_or_ge p.idToSymbol.length maxSymbols with hroom | hfull
  · obtain ⟨p₁, id₁, heq, hentered⟩ := registerSymbol_room hp hroom symbol
    rw [heq] at h
    rw [← (Prod.mk.inj h).1]
    exact hentered.registry
  · have hlength : p.idToSymbol.length = maxSymbols := Nat.le_antisymm hp.inUse hfull
    unfold HFTOrderBookProcessor.registerSymbol at h
    split at h
    next =>
      rw [← (Prod.mk.inj h).1]
      exact hp
    next =>
      have hbeyond : ¬ p.idToSymbol.length % 2 ^ 16 < p.tickSizes.length := by
        rw [hp.ticks, hlength]
        decide
      dsimp only at h
      rw [if_neg hbeyond] at h
      cases (Prod.mk.inj h).2

/-- Every symbol registered without a panic has the tick size of its name. -/
theorem Registry.registerSymbols (hp : Registry p) {symbols : List String} {p' : HFTOrderBookProcessor}
    (h : registerSymbols p symbols = (p', .ok ())) : Registry p' := by
  induction symbols generalizing p with
  | nil =>
      rw [← (Prod.mk.inj h).1]
      exact hp
  | cons symbol symbols ih =>
      unfold Hft.registerSymbols at h
      split at h
      next p₁ id heq => exact ih (hp.registerSymbol heq) h
      next => cases (Prod.mk.inj h).2

end HFTOrderBookProcessor
end Hft
end TradingPlatform
