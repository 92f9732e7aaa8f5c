import TradingPlatform.Feed.System

/-!
# `Feed.Routing` — the handler over the map of synchronisers

A frame reaches at most one synchroniser, that of the symbol it `Routes` to, and there it does what
`handleDepth` does; every other synchroniser stays as it is. So a run over frames of one symbol is the run of
that symbol's synchroniser, and an invariant of one synchroniser is one of the map.
-/

namespace TradingPlatform
namespace Feed

open Json Rust BinanceOrderbookSynchronizer

/-! ## Frames -/

/-- A text frame as a connection receives it, with the asset type of the connection. -/
structure Frame where
  text      : Option Value
  assetType : String

def handlerStep (syncs : Synchronizers) (frame : Frame) : Synchronizers × List Delivery :=
  processBinanceMessage syncs frame.text frame.assetType

/-- The message is a depth message of this symbol. -/
structure Routes (value : Value) (symbol : String) : Prop where
  not_confirmation : isConfirmation value = false
  orderbook        : streamType? value = some .orderbook
  symbol_eq        : originalSymbol value = symbol
  nonempty         : symbol ≠ ""

theorem handlerStep_routed {syncs : Synchronizers} {value : Value} {symbol : String}
    {s : BinanceOrderbookSynchronizer} (h : Routes value symbol) (hs : syncs symbol = some s)
    (assetType : String) :
    handlerStep syncs ⟨some value, assetType⟩
      = (Function.update syncs symbol (some (handleDepth s (actualData value)).1),
        (handleDepth s (actualData value)).2.map fun data => .orderbook data symbol assetType) := by
  obtain ⟨hconf, htype, rfl, hne⟩ := h
  unfold handlerStep processBinanceMessage
  simp only [hconf, htype, Bool.false_eq_true, if_false, if_neg hne, hs]

/-- **Where a frame goes.** Either no synchroniser notices it and no depth message leaves, or it is routed to
    one symbol's. -/
theorem handlerStep_cases (syncs : Synchronizers) (frame : Frame) :
    ((handlerStep syncs frame).1 = syncs ∧
      ∀ data symbol assetType, .orderbook data symbol assetType ∉ (handlerStep syncs frame).2) ∨
    ∃ value symbol s, frame.text = some value ∧ Routes value symbol ∧ syncs symbol = some s := by
  obtain ⟨text, assetType⟩ := frame
  unfold handlerStep processBinanceMessage
  -- one test of the handler after the other; all but the last leave the map alone
  cases text with
  | none => exact Or.inl ⟨rfl, fun _ _ _ => List.not_mem_nil⟩
  | some value =>
      cases hconf : isConfirmation value with
      | true => exact Or.inl ⟨by simp [hconf], by simp [hconf]⟩
      | false =>
          cases htype : streamType? value with
          | none => exact Or.inl ⟨by simp [hconf, htype], by simp [hconf, htype]⟩
          | some stream =>
              cases stream with
              | trade => exact Or.inl ⟨by simp [hconf, htype], by simp [hconf, htype]⟩
              | orderbook =>
                  by_cases hne : originalSymbol value = ""
                  · exact Or.inl ⟨by simp [hconf, htype, hne], by simp [hconf, htype, hne]⟩
                  · cases hs : syncs (originalSymbol value) with
                    | none => exact Or.inl ⟨by simp [hconf, htype, hne, hs], by simp [hconf, htype, hne, hs]⟩
                    | some s => exact Or.inr ⟨value, _, s, rfl, ⟨hconf, htype, rfl, hne⟩, hs⟩

/-! ## One symbol -/

/-- A run over frames of one symbol is the run of its synchroniser. -/
theorem run_routed {symbol : String} (assetType : String) {values : List Value}
    (h : ∀ v ∈ values, Routes v symbol) {syncs : Synchronizers} {s : BinanceOrderbookSynchronizer}
    (hs : syncs symbol = some s) :
    (Machine.run handlerStep syncs (values.map fun v => ⟨some v, assetType⟩)).1 symbol
        = some (Machine.run syncStep s (values.map fun v => .message (actualData v))).1 ∧
    (Machine.run handlerStep syncs (values.map fun v => ⟨some v, assetType⟩)).2
      = (Machine.run syncStep s (values.map fun v => .message (actualData v))).2.map
          fun data => .orderbook data symbol assetType := by
  induction values generalizing syncs s with
  | nil => exact ⟨hs, rfl⟩
  | cons v values ih =>
      have hstep := handlerStep_routed (h v (List.mem_cons_self ..)) hs assetType
      have hs' : (handlerStep syncs ⟨some v, assetType⟩).1 symbol = some (handleDepth s (actualData v)).1 := by
        rw [hstep]
        exact Function.update_self ..
      obtain ⟨hstate, hout⟩ := ih (fun w hw => h w (List.mem_cons_of_mem _ hw)) hs'
      simp only [List.map_cons, Machine.run_cons]
      refine ⟨hstate, ?_⟩
      rw [hout, hstep]
      exact (List.map_append ..).symm

/-- An invariant of every synchroniser is kept by the handler. -/
theorem handlerStep_invariant {P : String → BinanceOrderbookSynchronizer → Prop}
    (hP : ∀ symbol s data, P symbol s → P symbol (handleDepth s data).1) {syncs : Synchronizers}
    (h : ∀ symbol s, syncs symbol = some s → P symbol s) (frame : Frame) :
    ∀ symbol s, (handlerStep syncs frame).1 symbol = some s → P symbol s := by
  intro symbol s hs
  rcases handlerStep_cases syncs frame with ⟨hsame, _⟩ | ⟨value, symbol', s', htext, hroute, hs'⟩
  · rw [hsame] at hs
    exact h symbol s hs
  · obtain ⟨text, assetType⟩ := frame
    obtain rfl : text = some value := htext
    rw [handlerStep_routed hroute hs'] at hs
    change Function.update syncs symbol' (some (handleDepth s' (actualData value)).1) symbol = some s at hs
    by_cases heq : symbol = symbol'
    · subst heq
      rw [Function.update_self] at hs
      obtain rfl := Option.some.inj hs
      exact hP symbol s' _ (h symbol s' hs')
    · rw [Function.update_of_ne heq] at hs
      exact h symbol s hs

/-- Every delivery of a symbol comes out of its synchroniser. -/
theorem mem_handlerStep {syncs : Synchronizers} {frame : Frame} {data : Value} {symbol assetType : String}
    (h : .orderbook data symbol assetType ∈ (handlerStep syncs frame).2) :
    symbol ≠ "" ∧ ∃ s value, syncs symbol = some s ∧ data ∈ (handleDepth s (actualData value)).2 := by
  rcases handlerStep_cases syncs frame with ⟨_, hnone⟩ | ⟨value, symbol', s, htext, hroute, hs⟩
  · exact absurd h (hnone data symbol assetType)
  · obtain ⟨text, a⟩ := frame
    obtain rfl : text = some value := htext
    rw [handlerStep_routed hroute hs] at h
    obtain ⟨d, hd, heq⟩ := List.mem_map.mp h
    injection heq with hdata hsymbol _
    subst hdata hsymbol
    exact ⟨hroute.nonempty, s, value, hs, hd⟩

/-! ## The initial map -/

/-- The synchroniser of a subscribed symbol is new, with the snapshot fetched for one of its entries. -/
theorem initialize_eq (config : ExchangeConfig) (fetched : String → String → Option BinanceSnapshot)
    (symbol : String) :
    (∃ assetType, (symbol, assetType) ∈ config.allSymbols ∧
      initializeOrderbookSynchronizers config fetched symbol
        = some { new symbol assetType with snapshot := fetched symbol assetType }) ∨
    ((∀ assetType, (symbol, assetType) ∉ config.allSymbols) ∧
      initializeOrderbookSynchronizers config fetched symbol = none) := by
  unfold initializeOrderbookSynchronizers
  induction config.allSymbols using List.reverseRecOn with
  | nil => exact Or.inr ⟨fun _ => List.not_mem_nil, rfl⟩
  | append_singleton entries entry ih =>
      obtain ⟨symbol', assetType'⟩ := entry
      rw [List.foldl_append, List.foldl_cons, List.foldl_nil, addSynchronizer]
      by_cases heq : symbol = symbol'
      · -- the last entry of a symbol replaces the ones before it
        subst heq
        exact Or.inl ⟨assetType', by simp, Function.update_self ..⟩
      · rw [Function.update_of_ne heq]
        refine ih.imp ?_ ?_
        · rintro ⟨assetType, hmem, h⟩
          exact ⟨assetType, List.mem_append_left _ hmem, h⟩
        · rintro ⟨hnone, h⟩
          refine ⟨fun assetType hmem => ?_, h⟩
          rcases List.mem_append.mp hmem with hmem | hmem
          · exact hnone assetType hmem
          · exact heq (congrArg Prod.fst (List.mem_singleton.mp hmem))

/-! ## A message of the exchange is routed -/

/-- A bare depth message goes to the symbol it names. -/
theorem routes_depthMessage {symbol : String} (hne : symbol ≠ "") (U u : Nat) (pu : Option Nat) :
    Routes (depthMessage symbol U u pu) symbol := by
  have hstream : streamName (depthMessage symbol U u pu) = "" := by cases pu <;> rfl
  have hdata : actualData (depthMessage symbol U u pu) = depthMessage symbol U u pu := by
    cases pu <;> rfl
  have hkind : ((depthMessage symbol U u pu).get? "e").bind Value.asStr? = some "depthUpdate" := by
    cases pu <;> rfl
  refine ⟨by cases pu <;> rfl, ?_, ?_, hne⟩
  · unfold streamType?
    rw [hstream, hdata, if_neg (by decide), if_neg (by decide)]
    rw [hkind, if_neg (by decide)]
    exact if_pos rfl
  · unfold originalSymbol
    rw [hstream, hdata, if_neg (by simp)]
    rfl

theorem actualData_depthMessage (symbol : String) (U u : Nat) (pu : Option Nat) :
    actualData (depthMessage symbol U u pu) = depthMessage symbol U u pu := by
  cases pu <;> rfl

end Feed
end TradingPlatform
