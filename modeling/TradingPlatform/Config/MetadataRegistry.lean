import TradingPlatform.Library.Interning
import TradingPlatform.Library.Machine
import TradingPlatform.Rust.Overflow
import Mathlib.Data.Finset.Card

/-!
# `Config.MetadataRegistry` — the ids of exchanges and symbols

Exchanges have ids of 8 bits and symbols, within their exchange, ids of 16 bits. A new name is entered in both maps
before the counter is incremented. At the last id the increment panics in the development profile, and leaves the
entries behind; in the release profile the counter wraps, and an id is used again once they all are. So the registry is
sound exactly while there are ids enough (`registry_ids_sound_iff`).
-/

namespace TradingPlatform
namespace Config

open Interning Machine Rust

variable {κ : Type*}

/-- Names, their ids, and the id of the next new name. -/
structure IdTable (κ : Type*) where
  toId : κ → Option Nat
  ofId : Nat → Option κ
  next : Nat

namespace IdTable

def new : IdTable κ := { toId := fun _ => none, ofId := fun _ => none, next := 1 }

/-- The id of a name, which is entered if it is new. The increment comes after the entries; `none` panics. -/
def register [DecidableEq κ] (profile : Profile) (bits : Nat) (table : IdTable κ) (key : κ) :
    IdTable κ × Option Nat :=
  match table.toId key with
  | some id => (table, some id)
  | none    =>
      let entered : IdTable κ :=
        { table with
          toId := Function.update table.toId key (some table.next)
          ofId := Function.update table.ofId table.next (some key) }
      match profile.unsigned bits (table.next + 1) with
      | some next => ({ entered with next }, some table.next)
      | none      => (entered, none)

end IdTable

/-- `exchange_to_id`, `id_to_exchange` and `next_exchange_id`; `symbol_to_id`, `id_to_symbol` and `next_symbol_id`. -/
structure MetadataRegistry where
  exchanges : IdTable String
  symbols   : IdTable (String × String)

namespace MetadataRegistry

def new : MetadataRegistry := { exchanges := .new, symbols := .new }

def registerExchange (profile : Profile) (registry : MetadataRegistry) (exchange : String) :
    MetadataRegistry × Option Nat :=
  let (exchanges, id) := registry.exchanges.register profile 8 exchange
  ({ registry with exchanges }, id)

def registerSymbol (profile : Profile) (registry : MetadataRegistry) (exchange symbol : String) :
    MetadataRegistry × Option Nat :=
  let (symbols, id) := registry.symbols.register profile 16 (exchange, symbol)
  ({ registry with symbols }, id)

def getExchangeId (registry : MetadataRegistry) (exchange : String) : Option Nat := registry.exchanges.toId exchange

def getSymbolId (registry : MetadataRegistry) (exchange symbol : String) : Option Nat :=
  registry.symbols.toId (exchange, symbol)

def getExchangeName (registry : MetadataRegistry) (id : Nat) : Option String := registry.exchanges.ofId id

def getSymbolName (registry : MetadataRegistry) (id : Nat) : Option (String × String) := registry.symbols.ofId id

/-- Distinct names have distinct ids, and the lookups undo each other. -/
structure Faithful (registry : MetadataRegistry) : Prop where
  distinctExchanges : ∀ exchange exchange' id, registry.getExchangeId exchange = some id →
    registry.getExchangeId exchange' = some id → exchange = exchange'
  distinctSymbols   : ∀ exchange symbol exchange' symbol' id, registry.getSymbolId exchange symbol = some id →
    registry.getSymbolId exchange' symbol' = some id → (exchange, symbol) = (exchange', symbol')
  exchanges         : ∀ exchange id,
    registry.getExchangeId exchange = some id ↔ registry.getExchangeName id = some exchange
  symbols           : ∀ exchange symbol id,
    registry.getSymbolId exchange symbol = some id ↔ registry.getSymbolName id = some (exchange, symbol)

end MetadataRegistry

open MetadataRegistry

inductive Registration where
  | exchange (exchange : String)
  | symbol (exchange symbol : String)

def Registration.apply (profile : Profile) (registry : MetadataRegistry) :
    Registration → MetadataRegistry × Option Nat
  | .exchange name       => registry.registerExchange profile name
  | .symbol venue ticker => registry.registerSymbol profile venue ticker

/-- The id of the name that is registered. -/
def Registration.lookup (registry : MetadataRegistry) : Registration → Option Nat
  | .exchange name       => registry.getExchangeId name
  | .symbol venue ticker => registry.getSymbolId venue ticker

/-- The caller's view of one call: the registry it leaves, and the id it returned or the panic. -/
def register (profile : Profile) (registry : MetadataRegistry) (call : Registration) :
    MetadataRegistry × List (Option Nat) :=
  ((call.apply profile registry).1, [(call.apply profile registry).2])

/-- What one call should do. -/
structure Sound (profile : Profile) (registry : MetadataRegistry) (call : Registration) : Prop where
  faithful : (call.apply profile registry).1.Faithful
  returned : ∀ id, (call.apply profile registry).2 = some id →
    call.lookup (call.apply profile registry).1 = some id
  kept     : ∀ (other : Registration) id, other.lookup registry = some id →
    other.lookup (call.apply profile registry).1 = some id
  atomic   : (call.apply profile registry).2 = none → (call.apply profile registry).1 = registry

/-- The ids there are. Development needs one more for the counter after the last one, and `0` is never used. -/
def idLimit (bits : Nat) : Profile → Nat
  | .dev     => 2 ^ bits - 2
  | .release => 2 ^ bits

def Registration.exchange? : Registration → Option String
  | .exchange name => some name
  | .symbol _ _    => none

def Registration.symbol? : Registration → Option (String × String)
  | .exchange _          => none
  | .symbol venue ticker => some (venue, ticker)

def exchangesOf (calls : List Registration) : Finset String := (calls.filterMap Registration.exchange?).toFinset

def symbolsOf (calls : List Registration) : Finset (String × String) :=
  (calls.filterMap Registration.symbol?).toFinset

/-! ## One table -/

/-- The lookups are in step, and the ids in use are the first ones after `0`, modulo the width. -/
structure IdTable.InStep (profile : Profile) (bits : Nat) (table : IdTable κ) (keys : Finset κ) : Prop where
  inverse : Inverse table.toId table.ofId
  known   : ∀ key, (table.toId key).isSome = true ↔ key ∈ keys
  next    : table.next = (1 + keys.card) % 2 ^ bits
  used    : ∀ id, (table.ofId id).isSome = true ↔ ∃ i < keys.card, id = (1 + i) % 2 ^ bits
  room    : keys.card ≤ idLimit bits profile

theorem idLimit_le (bits : Nat) (profile : Profile) : idLimit bits profile ≤ 2 ^ bits := by
  cases profile with
  | dev => exact Nat.sub_le ..
  | release => exact Nat.le_refl _

/-- Within the width, different places have different ids. -/
theorem id_injective {n i width : Nat} (hi : i < n) (hn : n < width) : (1 + n) % width ≠ (1 + i) % width := by
  intro heq
  have hmod := Nat.sub_mod_eq_zero_of_mod_eq heq
  rw [Nat.mod_eq_of_lt (by omega)] at hmod
  omega

/-- The counter stays in step while there are ids left. -/
theorem unsigned_succ_of_lt {bits n : Nat} {profile : Profile} (hroom : n < idLimit bits profile) :
    profile.unsigned bits ((1 + n) % 2 ^ bits + 1) = some ((1 + (n + 1)) % 2 ^ bits) := by
  cases profile with
  | dev =>
      unfold idLimit at hroom
      dsimp only at hroom
      have hnext : (1 + n) % 2 ^ bits = 1 + n := Nat.mod_eq_of_lt (by omega)
      have hafter : (1 + (n + 1)) % 2 ^ bits = 1 + (n + 1) := Nat.mod_eq_of_lt (by omega)
      rw [hnext, hafter]
      exact if_pos (by omega)
  | release =>
      unfold Profile.unsigned
      dsimp only
      rw [Nat.mod_add_mod, Nat.add_assoc]

namespace IdTable

variable {profile : Profile} {bits : Nat} {table : IdTable κ} {keys : Finset κ} {key : κ}

theorem inStep_new (hbits : 1 < 2 ^ bits) : InStep profile bits (new : IdTable κ) ∅ where
  inverse := inverse_empty
  known   := fun _ => ⟨nofun, nofun⟩
  next    := (Nat.mod_eq_of_lt hbits).symm
  used    := fun _ => ⟨nofun, fun ⟨i, hi, _⟩ => absurd hi (Nat.not_lt_zero i)⟩
  room    := Nat.zero_le _

variable [DecidableEq κ]

theorem register_known {id : Nat} (h : table.toId key = some id) :
    table.register profile bits key = (table, some id) := by
  unfold register
  rw [h]

/-- A new name gets the next id while there are ids left. -/
theorem InStep.room_left (h : InStep profile bits table keys) (hnew : table.toId key = none)
    (hroom : keys.card < idLimit bits profile) :
    ∃ next, table.register profile bits key = (next, some table.next) ∧ InStep profile bits next (insert key keys) ∧
      next.toId = Function.update table.toId key (some table.next) := by
  have hwidth : keys.card < 2 ^ bits := Nat.lt_of_lt_of_le hroom (idLimit_le bits profile)
  have hnotMem : key ∉ keys := by
    rw [← h.known, hnew]
    nofun
  have hcard : (insert key keys).card = keys.card + 1 := Finset.card_insert_of_notMem hnotMem
  have hfree : table.ofId table.next = none := by
    rw [← Option.not_isSome_iff_eq_none, h.used]
    rintro ⟨i, hi, heq⟩
    exact id_injective hi hwidth (h.next.symm.trans heq)
  unfold register
  rw [hnew]
  dsimp only
  rw [h.next, unsigned_succ_of_lt hroom, ← h.next]
  refine ⟨_, rfl, ⟨?_, ?_, ?_, ?_, ?_⟩, rfl⟩
  · exact h.inverse.update hnew hfree
  · intro other
    rw [Finset.mem_insert, ← h.known]
    dsimp only
    by_cases hsame : other = key
    · rw [hsame, Function.update_self]
      exact iff_of_true rfl (.inl rfl)
    · rw [Function.update_of_ne hsame]
      exact (or_iff_right hsame).symm
  · rw [hcard]
  · intro id
    dsimp only
    rw [hcard]
    by_cases hsame : id = table.next
    · rw [hsame, Function.update_self]
      exact iff_of_true rfl ⟨keys.card, Nat.lt_succ_self _, h.next⟩
    · rw [Function.update_of_ne hsame, h.used]
      constructor
      · rintro ⟨i, hi, heq⟩
        exact ⟨i, Nat.lt_succ_of_lt hi, heq⟩
      · rintro ⟨i, hi, heq⟩
        refine ⟨i, Nat.lt_of_le_of_ne (Nat.le_of_lt_succ hi) ?_, heq⟩
        rintro rfl
        exact hsame (heq.trans h.next.symm)
  · rw [hcard]
    exact hroom

/-- What a call does when no id is left: it enters the name all the same, and panics, or has it share an id. -/
def Overrun (profile : Profile) (bits : Nat) (table : IdTable κ) (key : κ) : Prop :=
  table.toId key = none ∧ (table.register profile bits key).1.toId key = some table.next ∧
    ((table.register profile bits key).2 = none ∨
      ∃ other, other ≠ key ∧ (table.register profile bits key).1.toId other = some table.next)

theorem InStep.overrun (h : InStep profile bits table keys) (hbits : 1 < 2 ^ bits) (hnew : table.toId key = none)
    (hfull : keys.card = idLimit bits profile) : Overrun profile bits table key := by
  refine ⟨hnew, ?_⟩
  unfold register
  rw [hnew]
  cases profile with
  | dev =>
      have hlimit : keys.card = 2 ^ bits - 2 := hfull
      have hnext : table.next = 2 ^ bits - 1 := by
        rw [h.next, hlimit, Nat.mod_eq_of_lt (by omega)]
        omega
      have hpanic : Profile.dev.unsigned bits (table.next + 1) = none := if_neg (by omega)
      dsimp only
      rw [hpanic]
      exact ⟨Function.update_self .., .inl rfl⟩
  | release =>
      -- all ids are in use, and the counter is back at the first one
      have hlimit : keys.card = 2 ^ bits := hfull
      have hnext : table.next = (1 + 0) % 2 ^ bits := by
        rw [h.next, hlimit, Nat.add_mod_right]
      have hused : (table.ofId table.next).isSome = true := (h.used _).mpr ⟨0, by omega, hnext⟩
      obtain ⟨other, hother⟩ := Option.isSome_iff_exists.mp hused
      rw [← h.inverse] at hother
      have hne : other ≠ key := by
        rintro rfl
        rw [hnew] at hother
        cases hother
      refine ⟨Function.update_self .., .inr ⟨other, hne, ?_⟩⟩
      exact (Function.update_of_ne hne ..).trans hother

/-- **A call** in step: it returns the id of its name, keeps the others and stays in step; or it overruns the ids. -/
theorem InStep.register (h : InStep profile bits table keys) (hbits : 1 < 2 ^ bits) (key : κ) :
    (∃ id next, table.register profile bits key = (next, some id) ∧ InStep profile bits next ({key} ∪ keys) ∧
      next.toId key = some id ∧ ∀ other id', table.toId other = some id' → next.toId other = some id') ∨
    (Overrun profile bits table key ∧ idLimit bits profile < ({key} ∪ keys).card) := by
  rw [← Finset.insert_eq]
  cases hkey : table.toId key with
  | some id =>
      have hmem : key ∈ keys := (h.known key).mp (Option.isSome_iff_exists.mpr ⟨id, hkey⟩)
      rw [Finset.insert_eq_of_mem hmem]
      exact .inl ⟨id, table, register_known hkey, h, hkey, fun _ _ hother => hother⟩
  | none =>
      rcases Nat.lt_or_ge keys.card (idLimit bits profile) with hroom | hfull
      · obtain ⟨next, heq, hnext, hids⟩ := h.room_left hkey hroom
        refine .inl ⟨table.next, next, heq, hnext, ?_, ?_⟩
        · rw [hids, Function.update_self]
        · intro other id' hother
          have hne : other ≠ key := by
            rintro rfl
            rw [hkey] at hother
            cases hother
          rw [hids, Function.update_of_ne hne]
          exact hother
      · have hcard : keys.card = idLimit bits profile := Nat.le_antisymm h.room hfull
        have hnotMem : key ∉ keys := by
          rw [← h.known, hkey]
          nofun
        refine .inr ⟨h.overrun hbits hkey hcard, ?_⟩
        rw [Finset.card_insert_of_notMem hnotMem, hcard]
        exact Nat.lt_succ_self _

end IdTable

/-! ## One call -/

variable {profile : Profile} {registry : MetadataRegistry}

theorem faithful_of_inverse (h : Inverse registry.exchanges.toId registry.exchanges.ofId)
    (h' : Inverse registry.symbols.toId registry.symbols.ofId) : registry.Faithful where
  distinctExchanges := fun _ _ _ => h.injective
  distinctSymbols   := fun _ _ _ _ _ => h'.injective
  exchanges         := h
  symbols           := fun _ _ => h' _

/-- A call that keeps the tables in step and the ids of before, and returns the id of its name, does what it should. -/
theorem sound_of_apply {call : Registration} {next : MetadataRegistry} {id : Nat}
    (happly : call.apply profile registry = (next, some id)) (h : Inverse next.exchanges.toId next.exchanges.ofId)
    (h' : Inverse next.symbols.toId next.symbols.ofId) (hid : call.lookup next = some id)
    (hkept : ∀ (other : Registration) id', other.lookup registry = some id' → other.lookup next = some id') :
    Sound profile registry call := by
  refine ⟨?_, ?_, ?_, ?_⟩
  · rw [happly]
    exact faithful_of_inverse h h'
  · rw [happly]
    intro id' hreturned
    exact hid.trans hreturned
  · rw [happly]
    exact hkept
  · rw [happly]
    nofun

theorem sound_exchange {name : String} {id : Nat} {next : IdTable String}
    (heq : registry.exchanges.register profile 8 name = (next, some id)) (h : Inverse next.toId next.ofId)
    (h' : Inverse registry.symbols.toId registry.symbols.ofId) (hid : next.toId name = some id)
    (hkept : ∀ other id', registry.exchanges.toId other = some id' → next.toId other = some id') :
    Sound profile registry (.exchange name) := by
  have happly : (Registration.exchange name).apply profile registry
      = ({ registry with exchanges := next }, some id) := by
    show registry.registerExchange profile name = _
    unfold registerExchange
    rw [heq]
  refine sound_of_apply happly h h' hid ?_
  intro other id' hother
  cases other with
  | exchange name' => exact hkept name' id' hother
  | symbol venue ticker => exact hother

theorem sound_symbol {venue ticker : String} {id : Nat} {next : IdTable (String × String)}
    (heq : registry.symbols.register profile 16 (venue, ticker) = (next, some id))
    (h : Inverse registry.exchanges.toId registry.exchanges.ofId) (h' : Inverse next.toId next.ofId)
    (hid : next.toId (venue, ticker) = some id)
    (hkept : ∀ other id', registry.symbols.toId other = some id' → next.toId other = some id') :
    Sound profile registry (.symbol venue ticker) := by
  have happly : (Registration.symbol venue ticker).apply profile registry
      = ({ registry with symbols := next }, some id) := by
    show registry.registerSymbol profile venue ticker = _
    unfold registerSymbol
    rw [heq]
  refine sound_of_apply happly h h' hid ?_
  intro other id' hother
  cases other with
  | exchange name => exact hother
  | symbol venue' ticker' => exact hkept (venue', ticker') id' hother

/-- A name that was entered where there is no id for it. -/
theorem not_sound_exchange {name : String} (h : registry.exchanges.Overrun profile 8 name) :
    ¬ Sound profile registry (.exchange name) := by
  intro hsound
  obtain ⟨hnew, hentered, hpanic | ⟨other, hne, hother⟩⟩ := h
  · have hkept := congrArg (fun registry => registry.exchanges.toId name) (hsound.atomic hpanic)
    rw [hnew] at hkept
    exact absurd (hentered.symm.trans hkept) nofun
  · exact hne (hsound.faithful.distinctExchanges other name _ hother hentered)

theorem not_sound_symbol {venue ticker : String} (h : registry.symbols.Overrun profile 16 (venue, ticker)) :
    ¬ Sound profile registry (.symbol venue ticker) := by
  intro hsound
  obtain ⟨hnew, hentered, hpanic | ⟨⟨venue', ticker'⟩, hne, hother⟩⟩ := h
  · have hkept := congrArg (fun registry => registry.symbols.toId (venue, ticker)) (hsound.atomic hpanic)
    rw [hnew] at hkept
    exact absurd (hentered.symm.trans hkept) nofun
  · exact hne (hsound.faithful.distinctSymbols venue' ticker' venue ticker _ hother hentered)

/-- Both tables in step, with the names each holds. -/
structure InStep (profile : Profile) (registry : MetadataRegistry) (exchanges : Finset String)
    (symbols : Finset (String × String)) : Prop where
  exchanges : registry.exchanges.InStep profile 8 exchanges
  symbols   : registry.symbols.InStep profile 16 symbols

theorem inStep_new (profile : Profile) : InStep profile new ∅ ∅ where
  exchanges := IdTable.inStep_new (by decide)
  symbols   := IdTable.inStep_new (by decide)

variable {exchanges : Finset String} {symbols : Finset (String × String)}

/-- **A call** in step: it is sound and stays in step; or it needs an id more than there are, and is not sound. -/
theorem InStep.step (h : InStep profile registry exchanges symbols) (call : Registration) :
    (Sound profile registry call ∧
      InStep profile (register profile registry call).1 (exchangesOf [call] ∪ exchanges)
        (symbolsOf [call] ∪ symbols)) ∨
    (¬ Sound profile registry call ∧
      (idLimit 8 profile < (exchangesOf [call] ∪ exchanges).card ∨
        idLimit 16 profile < (symbolsOf [call] ∪ symbols).card)) := by
  cases call with
  | exchange name =>
      have hsymbols : symbolsOf [.exchange name] = ∅ := rfl
      have hexchanges : exchangesOf [.exchange name] = {name} := rfl
      rw [hsymbols, hexchanges, Finset.empty_union]
      rcases h.exchanges.register (by decide) name with ⟨id, next, heq, hnext, hid, hkept⟩ | ⟨hover, hlimit⟩
      · refine .inl ⟨sound_exchange heq hnext.inverse h.symbols.inverse hid hkept, ?_, h.symbols⟩
        show (registry.exchanges.register profile 8 name).1.InStep profile 8 _
        rw [heq]
        exact hnext
      · exact .inr ⟨not_sound_exchange hover, .inl hlimit⟩
  | symbol venue ticker =>
      have hexchanges : exchangesOf [.symbol venue ticker] = ∅ := rfl
      have hsymbols : symbolsOf [.symbol venue ticker] = {(venue, ticker)} := rfl
      rw [hexchanges, hsymbols, Finset.empty_union]
      rcases h.symbols.register (by decide) (venue, ticker) with ⟨id, next, heq, hnext, hid, hkept⟩ | ⟨hover, hlimit⟩
      · refine .inl ⟨sound_symbol heq h.exchanges.inverse hnext.inverse hid hkept, h.exchanges, ?_⟩
        show (registry.symbols.register profile 16 (venue, ticker)).1.InStep profile 16 _
        rw [heq]
        exact hnext
      · exact .inr ⟨not_sound_symbol hover, .inr hlimit⟩

/-! ## Sequences of calls -/

theorem exchangesOf_cons (call : Registration) (calls : List Registration) :
    exchangesOf (call :: calls) = exchangesOf [call] ∪ exchangesOf calls := by
  unfold exchangesOf
  rw [← List.toFinset_append, ← List.filterMap_append, List.singleton_append]

theorem symbolsOf_cons (call : Registration) (calls : List Registration) :
    symbolsOf (call :: calls) = symbolsOf [call] ∪ symbolsOf calls := by
  unfold symbolsOf
  rw [← List.toFinset_append, ← List.filterMap_append, List.singleton_append]

/-- A sequence of calls is sound when there are ids for its names and those that are registered. -/
theorem InStep.guarded_iff (h : InStep profile registry exchanges symbols) (calls : List Registration) :
    Guarded (register profile) (Sound profile) registry calls ↔
      (exchangesOf calls ∪ exchanges).card ≤ idLimit 8 profile ∧
      (symbolsOf calls ∪ symbols).card ≤ idLimit 16 profile := by
  induction calls generalizing registry exchanges symbols with
  | nil =>
      have hexchanges : exchangesOf [] ∪ exchanges = exchanges := Finset.empty_union exchanges
      have hsymbols : symbolsOf [] ∪ symbols = symbols := Finset.empty_union symbols
      rw [hexchanges, hsymbols]
      exact iff_of_true trivial ⟨h.exchanges.room, h.symbols.room⟩
  | cons call calls ih =>
      have hexchanges : exchangesOf (call :: calls) ∪ exchanges
          = exchangesOf calls ∪ (exchangesOf [call] ∪ exchanges) := by
        rw [exchangesOf_cons, Finset.union_assoc, Finset.union_left_comm]
      have hsymbols : symbolsOf (call :: calls) ∪ symbols = symbolsOf calls ∪ (symbolsOf [call] ∪ symbols) := by
        rw [symbolsOf_cons, Finset.union_assoc, Finset.union_left_comm]
      unfold Guarded
      rw [hexchanges, hsymbols]
      rcases h.step call with ⟨hsound, hnext⟩ | ⟨hnot, hover⟩
      · rw [and_iff_right hsound, ih hnext]
      · -- the names up to this call are too many already
        refine iff_of_false (fun hall => hnot hall.1) fun hfits => ?_
        have hexchange : exchangesOf [call] ∪ exchanges ⊆ exchangesOf calls ∪ (exchangesOf [call] ∪ exchanges) :=
          Finset.subset_union_right
        have hsymbol : symbolsOf [call] ∪ symbols ⊆ symbolsOf calls ∪ (symbolsOf [call] ∪ symbols) :=
          Finset.subset_union_right
        have hle := Finset.card_le_card hexchange
        have hle' := Finset.card_le_card hsymbol
        omega

/-- **Registry ids** are a bijection, and a call that cannot allot an id leaves the registry as it is, at every call
    of a sequence, exactly when the sequence names no more exchanges and no more symbols than there are ids. -/
theorem registry_ids_sound_iff (profile : Profile) (calls : List Registration) :
    Guarded (register profile) (Sound profile) new calls ↔
      (exchangesOf calls).card ≤ idLimit 8 profile ∧ (symbolsOf calls).card ≤ idLimit 16 profile := by
  rw [(inStep_new profile).guarded_iff calls, Finset.union_empty, Finset.union_empty]

/-! ## More exchanges than ids -/

def exchangeNamed (n : Nat) : String := String.ofList (List.replicate n 'x')

theorem exchangeNamed_injective {n m : Nat} (h : exchangeNamed n = exchangeNamed m) : n = m := by
  have hlengths := congrArg (fun name => name.toList.length) h
  unfold exchangeNamed at hlengths
  simpa using hlengths

/-- One call for each of 257 exchanges. -/
def tooManyExchanges : List Registration := (List.range 257).map fun n => .exchange (exchangeNamed n)

theorem not_guarded_tooManyExchanges (profile : Profile) :
    ¬ Guarded (register profile) (Sound profile) new tooManyExchanges := by
  intro h
  have hfits := ((inStep_new profile).guarded_iff tooManyExchanges).mp h
  have hnames : tooManyExchanges.filterMap Registration.exchange? = (List.range 257).map exchangeNamed := by
    unfold tooManyExchanges
    rw [List.filterMap_map, ← List.filterMap_eq_map]
    rfl
  have hnodup : ((List.range 257).map exchangeNamed).Nodup :=
    List.nodup_range.map fun _ _ => exchangeNamed_injective
  have hcard : (exchangesOf tooManyExchanges ∪ ∅).card = 257 := by
    unfold exchangesOf
    rw [Finset.union_empty, hnames, List.toFinset_card_of_nodup hnodup, List.length_map, List.length_range]
  have hlimit := Nat.le_trans hfits.1 (idLimit_le 8 profile)
  rw [hcard] at hlimit
  exact absurd hlimit (by decide)

/-- Development panics at the 255th exchange and has entered it; release gives the 257th the id of the first. -/
theorem not_registry_ids_sound :
    ¬ Guarded (register .dev) (Sound .dev) new tooManyExchanges ∧
    ¬ Guarded (register .release) (Sound .release) new tooManyExchanges :=
  ⟨not_guarded_tooManyExchanges .dev, not_guarded_tooManyExchanges .release⟩

end Config
end TradingPlatform
