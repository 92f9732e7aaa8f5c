import TradingPlatform.Library.Guards
import TradingPlatform.Library.Interning
import TradingPlatform.Rust.Text

/-!
# `Cache.SymbolMapper` — symbol ids, and the lock around them

A mapper interns the names of exchanges and of symbols. `map_symbol` looks a symbol up under the write lock of
`EXCHANGE_MAP` and adds one it does not know in a closure that awaits the same lock; the guard of the lookup is a
temporary of the whole tail expression, and so it is held still. A call returns exactly if its symbol is known, and
then the ids are those of the symbols in upper case (`symbols_mapped_iff`).
-/

namespace TradingPlatform
namespace Cache

open Guards Interning Machine

/-- `str::to_lowercase` and `str::to_uppercase`. They follow the Unicode tables, on which nothing here depends. -/
structure Casing where
  toLowercase : String → String
  toUppercase : String → String

/-- `exchange_to_id` with `id_to_exchange`, and `symbol_to_id` with `id_to_symbol`. -/
structure SymbolMapper where
  exchanges : Interner String
  symbols   : Interner String

namespace SymbolMapper

def new : SymbolMapper := { exchanges := .empty, symbols := .empty }

def addExchange (casing : Casing) (mapper : SymbolMapper) (name : String) : SymbolMapper × Nat :=
  let (exchanges, id) := mapper.exchanges.intern (casing.toLowercase name)
  ({ mapper with exchanges }, id)

def newWithDefaults (casing : Casing) : SymbolMapper :=
  ["binance", "bybit", "upbit", "coinbase", "okx", "deribit", "bithumb", "ls"].foldl
    (fun mapper name => (addExchange casing mapper name).1) new

def addSymbol (casing : Casing) (mapper : SymbolMapper) (name : String) : SymbolMapper × Nat :=
  let (symbols, id) := mapper.symbols.intern (casing.toUppercase name)
  ({ mapper with symbols }, id)

def getSymbolId (casing : Casing) (mapper : SymbolMapper) (name : String) : Option Nat :=
  mapper.symbols.toId (casing.toUppercase name)

def getSymbolName (mapper : SymbolMapper) (id : Nat) : Option String := mapper.symbols.ofId[id]?

end SymbolMapper

open SymbolMapper

inductive Lock where
  | exchangeMap
deriving DecidableEq

/-- The guard of the lookup lives on while the closure runs. Nothing panics under a guard, so that the lock is never
    poisoned and a call that returns returns an id. -/
def mapSymbol (casing : Casing) (mapper : SymbolMapper) (name : String) : Option (SymbolMapper × Nat) :=
  withGuard [] Lock.exchangeMap fun held =>
    match mapper.getSymbolId casing name with
    | some id => some (mapper, id)
    | none    => withGuard held .exchangeMap fun _ => some (mapper.addSymbol casing name)

/-- What fills a mapper before its symbols are mapped. -/
inductive Addition where
  | exchange (name : String)
  | symbol (name : String)

def Addition.apply (casing : Casing) (mapper : SymbolMapper) : Addition → SymbolMapper
  | .exchange name => (mapper.addExchange casing name).1
  | .symbol name   => (mapper.addSymbol casing name).1

def fill (casing : Casing) (mapper : SymbolMapper) (additions : List Addition) : SymbolMapper :=
  additions.foldl (Addition.apply casing) mapper

/-- The calls of one thread, and the names with what their calls returned. -/
def mapSymbols (casing : Casing) (mapper : SymbolMapper) (names : List String) :
    SymbolMapper × List (String × Option Nat) :=
  ((run (callStep (mapSymbol casing)) mapper names).1, names.zip (run (callStep (mapSymbol casing)) mapper names).2)

/-- What the calls of one thread should do. -/
structure Mapped (casing : Casing) (mapper : SymbolMapper) (names : List String) : Prop where
  returned  : Returns (mapSymbol casing) mapper names
  injective : ∀ name name' id id', (name, some id) ∈ (mapSymbols casing mapper names).2 →
    (name', some id') ∈ (mapSymbols casing mapper names).2 →
    (id = id' ↔ casing.toUppercase name = casing.toUppercase name')
  back      : ∀ name id, (name, some id) ∈ (mapSymbols casing mapper names).2 →
    (mapSymbols casing mapper names).1.getSymbolName id = some (casing.toUppercase name)

variable {casing : Casing} {mapper : SymbolMapper}

/-! ## One call -/

theorem mapSymbol_known {name : String} {id : Nat} (h : mapper.getSymbolId casing name = some id) :
    mapSymbol casing mapper name = some (mapper, id) := by
  unfold mapSymbol
  rw [withGuard_of_notMem List.not_mem_nil, h]

/-- The closure awaits the lock under the guard of the lookup. -/
theorem mapSymbol_unknown {name : String} (h : mapper.getSymbolId casing name = none) :
    mapSymbol casing mapper name = none := by
  unfold mapSymbol
  rw [withGuard_of_notMem List.not_mem_nil, h]
  exact withGuard_of_mem List.mem_cons_self _

theorem isSome_mapSymbol_iff (casing : Casing) (mapper : SymbolMapper) (name : String) :
    (mapSymbol casing mapper name).isSome = true ↔ (mapper.getSymbolId casing name).isSome = true := by
  cases hid : mapper.getSymbolId casing name with
  | some id =>
      rw [mapSymbol_known hid]
      exact iff_of_true rfl rfl
  | none => rw [mapSymbol_unknown hid, Option.isSome_none, Option.isSome_none]

/-- A call that returns adds nothing. -/
theorem mapSymbol_kept {name : String} {next : SymbolMapper × Nat} (h : mapSymbol casing mapper name = some next) :
    next.1 = mapper := by
  cases hid : mapper.getSymbolId casing name with
  | some id =>
      rw [mapSymbol_known hid] at h
      exact congrArg Prod.fst (Option.some.inj h).symm
  | none =>
      rw [mapSymbol_unknown hid] at h
      cases h

/-! ## Sequences of calls -/

/-- **A mapper that knows all names** answers each with its id. -/
theorem Mapped.of_known (h : mapper.symbols.Faithful) {names : List String}
    (hknown : ∀ name ∈ names, (mapper.getSymbolId casing name).isSome = true) : Mapped casing mapper names := by
  have hanswer : ∀ name ∈ names,
      mapSymbol casing mapper name = some (mapper, (mapper.getSymbolId casing name).getD 0) := by
    intro name hname
    obtain ⟨id, hid⟩ := Option.isSome_iff_exists.mp (hknown name hname)
    rw [mapSymbol_known hid, hid]
    rfl
  have hmapped : ∀ name id, (name, some id) ∈ (mapSymbols casing mapper names).2 →
      mapper.getSymbolId casing name = some id := by
    unfold mapSymbols
    rw [run_callStep_of_kept hanswer]
    dsimp only
    rw [← List.map_prod_left_eq_zip]
    intro name id hmem
    obtain ⟨name', hname', heq⟩ := List.mem_map.mp hmem
    obtain ⟨rfl, hanswered⟩ := Prod.mk.inj heq
    obtain ⟨id', hid'⟩ := Option.isSome_iff_exists.mp (hknown name' hname')
    rw [hid'] at hanswered
    rw [hid']
    exact hanswered
  have hkept : (mapSymbols casing mapper names).1 = mapper := by
    unfold mapSymbols
    rw [run_callStep_of_kept hanswer]
  refine ⟨?_, ?_, ?_⟩
  · exact (returns_iff_forall (isSome_mapSymbol_iff casing mapper) fun _ _ => mapSymbol_kept).mpr hknown
  · intro name name' id id' hmem hmem'
    have hid := hmapped name id hmem
    have hid' := hmapped name' id' hmem'
    constructor
    · rintro rfl
      exact h.injective hid hid'
    · intro hupper
      unfold getSymbolId at hid hid'
      rw [hupper, hid'] at hid
      exact (Option.some.inj hid).symm
  · intro name id hmem
    rw [hkept]
    exact (h _ _).mp (hmapped name id hmem)

/-! ## The symbols of a mapper -/

theorem faithful_fill (h : mapper.symbols.Faithful) (additions : List Addition) :
    (fill casing mapper additions).symbols.Faithful := by
  unfold fill
  induction additions generalizing mapper with
  | nil => exact h
  | cons addition additions ih =>
      cases addition with
      | exchange name => exact ih h
      | symbol name => exact ih (h.intern _)

/-- The symbols known then are those of before and those added. -/
theorem isSome_toId_fill (mapper : SymbolMapper) (additions : List Addition) (key : String) :
    ((fill casing mapper additions).symbols.toId key).isSome = true ↔
      (mapper.symbols.toId key).isSome = true ∨
      ∃ symbol, .symbol symbol ∈ additions ∧ casing.toUppercase symbol = key := by
  unfold fill
  induction additions generalizing mapper with
  | nil => simp
  | cons addition additions ih =>
      rw [List.foldl_cons, ih]
      cases addition with
      | exchange name =>
          have hkept : (Addition.apply casing mapper (.exchange name)).symbols = mapper.symbols := rfl
          simp [hkept]
      | symbol name =>
          have hadded : ((Addition.apply casing mapper (.symbol name)).symbols.toId key).isSome = true ↔
              key = casing.toUppercase name ∨ (mapper.symbols.toId key).isSome = true :=
            Interner.isSome_toId_intern mapper.symbols (casing.toUppercase name) key
          simp only [hadded, List.mem_cons, Addition.symbol.injEq, or_and_right, exists_or, exists_eq_left]
          rw [eq_comm, or_assoc, or_left_comm]

/-- **Symbol mapping** returns and is injective, for the calls of one thread, exactly if each names a symbol that was
    added before the calls. -/
theorem symbols_mapped_iff (casing : Casing) (additions : List Addition) (names : List String) :
    Mapped casing (fill casing (newWithDefaults casing) additions) names ↔
      ∀ name ∈ names, ∃ symbol, .symbol symbol ∈ additions ∧ casing.toUppercase symbol = casing.toUppercase name := by
  have hempty : (newWithDefaults casing).symbols = .empty := rfl
  have hknown : ∀ name, ((fill casing (newWithDefaults casing) additions).getSymbolId casing name).isSome = true ↔
      ∃ symbol, .symbol symbol ∈ additions ∧ casing.toUppercase symbol = casing.toUppercase name := by
    intro name
    unfold getSymbolId
    rw [isSome_toId_fill, hempty]
    exact or_iff_right nofun
  have hfaithful : (fill casing (newWithDefaults casing) additions).symbols.Faithful :=
    faithful_fill (hempty ▸ Interner.faithful_empty) additions
  constructor
  · intro h name hname
    have hall := (returns_iff_forall (isSome_mapSymbol_iff casing _) fun _ _ => mapSymbol_kept).mp h.returned
    exact (hknown name).mp (hall name hname)
  · intro h
    exact Mapped.of_known hfaithful fun name hname => (hknown name).mpr (h name hname)

/-! ## The first symbol -/

def asciiCasing : Casing := { toLowercase := Rust.toLowercase, toUppercase := Rust.toUppercase }

/-- No symbol has been added yet: the call awaits the lock it holds. -/
theorem first_symbol_waits : ¬ Mapped asciiCasing (newWithDefaults asciiCasing) ["BTC/USDT"] := by
  intro h
  have hreturned := (returns_iff_forall (isSome_mapSymbol_iff asciiCasing _) fun _ _ => mapSymbol_kept).mp h.returned
  exact absurd (hreturned "BTC/USDT" List.mem_cons_self) (by decide +kernel)

end Cache
end TradingPlatform
