import TradingPlatform.Feed.Routing

/-!
# `Feed.Interference` — spot and futures streams of one symbol

The map of synchronisers is keyed by the symbol alone, so the spot and the futures stream of a symbol share
one synchroniser. What the streams deliver is independent of each other only when that synchroniser can never
deliver anything: `streams_isolated_iff`.
-/

namespace TradingPlatform
namespace Feed

open Json BinanceOrderbookSynchronizer BufferedDepthEvent

/-! ## Two streams -/

/-- A depth message on a spot or a futures connection. -/
def IsDepthFrame (frame : Frame) : Prop :=
  (frame.assetType = "spot" ∨ frame.assetType = "futures") ∧
    ∃ value, frame.text = some value ∧ isConfirmation value = false ∧ streamType? value = some .orderbook

/-- A depth message of the symbol handed on for a connection of this asset type. -/
def deliversFor (symbol assetType : String) : Delivery → Bool
  | .orderbook _ originalSymbol a => originalSymbol == symbol && a == assetType
  | .trade ..                     => false

/-- What is delivered for this asset type depends on the messages of this asset type only. -/
def Isolated (syncs : Synchronizers) (symbol assetType : String) : Prop :=
  Machine.NonInterfering handlerStep syncs IsDepthFrame (fun frame => frame.assetType == assetType)
    (deliversFor symbol assetType)

/-- The snapshot both streams of the symbol share. -/
def sharedSnapshot (syncs : Synchronizers) (symbol : String) : Option BinanceSnapshot :=
  (syncs symbol).bind BinanceOrderbookSynchronizer.snapshot

/-! ## A synchroniser that never delivers -/

/-- Unsynchronised, with no snapshot an event could still join. -/
structure Mute (s : BinanceOrderbookSynchronizer) : Prop where
  unsynced : s.isSynchronized = false
  noRoom   : ∀ snap, s.snapshot = some snap → ¬ snap.lastUpdateId + 1 < 2 ^ 64
  genuine  : Genuine s

theorem Mute.handleDepth {s : BinanceOrderbookSynchronizer} (h : Mute s) (data : Value) :
    Mute (handleDepth s data).1 ∧ (handleDepth s data).2 = [] := by
  have hgen : Genuine (Feed.handleDepth s data).1 := h.genuine.syncStep (.message data)
  rcases handleDepth_of_unsynced h.unsynced data with ⟨_, hr⟩ | ⟨snap, hsnap, ⟨hacc, _⟩ | ⟨_, hr⟩⟩
  · rw [hr] at hgen ⊢
    exact ⟨⟨h.unsynced, h.noRoom, hgen⟩, rfl⟩
  · -- the first accepted event would have an id past the largest one
    cases hpend : pending s snap.lastUpdateId (depthEvent data) with
    | nil => rw [hpend] at hacc; exact absurd hacc id
    | cons e es =>
        have he : e ∈ pending s snap.lastUpdateId (depthEvent data) := hpend ▸ List.mem_cons_self ..
        have hpast : snap.lastUpdateId < e.finalUpdateId := of_decide_eq_true (List.mem_filter.mp he).2
        have hlt := finalUpdateId_lt e.data
        rw [h.genuine.pending snap.lastUpdateId data e he] at hlt
        exact absurd (Nat.lt_of_le_of_lt hpast hlt) (h.noRoom snap hsnap)
  · rw [hr] at hgen ⊢
    exact ⟨⟨h.unsynced, h.noRoom, hgen⟩, rfl⟩

/-- Nothing of the symbol is ever delivered. -/
def Silent (symbol : String) (syncs : Synchronizers) : Prop :=
  symbol = "" ∨ ∀ s, syncs symbol = some s → Mute s

theorem Silent.handlerStep {symbol : String} (syncs : Synchronizers) (frame : Frame)
    (h : Silent symbol syncs) : Silent symbol (handlerStep syncs frame).1 := by
  refine h.imp_right fun hmute => ?_
  have hkeep := handlerStep_invariant (P := fun x s => x = symbol → Mute s)
    (fun _ _ data hs hx => ((hs hx).handleDepth data).1)
    (fun x s hs hx => hmute s (hx ▸ hs)) frame
  intro s hs
  exact hkeep symbol s hs rfl

theorem Silent.not_delivers {symbol assetType : String} (syncs : Synchronizers) (frame : Frame)
    (h : Silent symbol syncs) : ∀ d ∈ (Feed.handlerStep syncs frame).2, deliversFor symbol assetType d = false := by
  intro d hd
  cases d with
  | trade => rfl
  | orderbook data symbol' a =>
      by_contra hobs
      have hobs : symbol' = symbol ∧ a = assetType := by simpa [deliversFor] using hobs
      obtain ⟨rfl, rfl⟩ := hobs
      obtain ⟨hne, s, value, hs, hdata⟩ := mem_handlerStep hd
      rcases h with hempty | hmute
      · exact hne hempty
      · rw [((hmute s hs).handleDepth (actualData value)).2] at hdata
        cases hdata

/-! ## A synchroniser that can still deliver -/

/-- An event that joins the snapshot by itself is delivered at once. -/
theorem handleDepth_joins {s : BinanceOrderbookSynchronizer} {snap : BinanceSnapshot} {data : Value}
    (hs : s.isSynchronized = false) (hsnap : s.snapshot = some snap) (hbuf : s.eventBuffer = [])
    (hpast : snap.lastUpdateId < (depthEvent data).finalUpdateId)
    (hacc : Accepts snap.lastUpdateId [depthEvent data]) :
    handleDepth s data = (s.synced snap.lastUpdateId [depthEvent data], [data]) := by
  have hpend : pending s snap.lastUpdateId (depthEvent data) = [depthEvent data] := by
    unfold pending retained
    rw [hbuf]
    exact List.filter_eq_self.mpr fun e he => by
      obtain rfl := List.mem_singleton.mp he
      exact decide_eq_true hpast
  rcases handleDepth_of_unsynced hs data with ⟨hnone, _⟩ | ⟨snap', hsnap', h⟩
  · exact absurd (hsnap.symm.trans hnone) (by intro h; cases h)
  · obtain rfl := Option.some.inj (hsnap.symm.trans hsnap')
    rw [hpend] at h
    rcases h with ⟨_, hr⟩ | ⟨hrej, _⟩
    · exact hr
    · exact absurd hacc hrej

theorem handleDepth_gap {s : BinanceOrderbookSynchronizer} {data : Value} (hs : s.isSynchronized = true)
    (hgap : ¬ (depthEvent data).Follows s.lastValidatedUpdateId) : (handleDepth s data).2 = [] := by
  rcases handleDepth_of_synced hs data with ⟨hfol, _⟩ | ⟨_, hr⟩
  · exact absurd hfol hgap
  · rw [hr]

theorem isDepthFrame_of_routes {value : Value} {symbol assetType : String} (h : Routes value symbol)
    (ha : assetType = "spot" ∨ assetType = "futures") : IsDepthFrame ⟨some value, assetType⟩ :=
  ⟨ha, value, rfl, h.not_confirmation, h.orderbook⟩

theorem filter_deliversFor (symbol a b : String) (datas : List Value) :
    (datas.map fun data => Delivery.orderbook data symbol b).filter (deliversFor symbol a)
      = if b = a then datas.map fun data => Delivery.orderbook data symbol b else [] := by
  split
  next h =>
    apply List.filter_eq_self.mpr
    intro d hd
    obtain ⟨data, _, rfl⟩ := List.mem_map.mp hd
    simp [deliversFor, h]
  next h =>
    apply List.filter_eq_nil_iff.mpr
    intro d hd
    obtain ⟨data, _, rfl⟩ := List.mem_map.mp hd
    simp [deliversFor, h]

/-- A message that is delivered alone but lost after one message of the other type. -/
theorem not_isolated_of_lost {syncs : Synchronizers} {symbol a b : String} {s : BinanceOrderbookSynchronizer}
    {own other : Value} (hown : Routes own symbol) (hother : Routes other symbol) (hs : syncs symbol = some s)
    (ha : a = "spot" ∨ a = "futures") (hb : b = "spot" ∨ b = "futures") (hba : b ≠ a)
    (halone : (handleDepth s (actualData own)).2 ≠ [])
    (hlost : (handleDepth (handleDepth s (actualData other)).1 (actualData own)).2 = []) :
    ¬ Isolated syncs symbol a := by
  intro hiso
  have hown_frame : IsDepthFrame ⟨some own, a⟩ := isDepthFrame_of_routes hown ha
  have hother_frame : IsDepthFrame ⟨some other, b⟩ := isDepthFrame_of_routes hother hb
  have hrun := hiso [⟨some own, a⟩] [⟨some other, b⟩, ⟨some own, a⟩] (by simp [hown_frame])
    (by simp [hown_frame, hother_frame]) (by simp [hba])
  simp only [Machine.run_cons, Machine.run_nil, List.append_nil, List.filter_append] at hrun
  rw [handlerStep_routed hown hs a, handlerStep_routed hother hs b,
    handlerStep_routed hown (Function.update_self ..) a] at hrun
  simp only [hlost, filter_deliversFor, if_neg hba, if_true, List.map_nil] at hrun
  exact halone (List.map_eq_nil_iff.mp hrun)

/-- A new synchroniser with a snapshot: a message that joins it is lost when the other stream joined first. -/
theorem not_isolated {syncs : Synchronizers} {symbol a b : String} {s : BinanceOrderbookSynchronizer}
    {snap : BinanceSnapshot} (hne : symbol ≠ "") (hsome : syncs symbol = some s)
    (hs : s.isSynchronized = false) (hsnap : s.snapshot = some snap) (hbuf : s.eventBuffer = [])
    (hroom : snap.lastUpdateId + 1 < 2 ^ 64) (ha : a = "spot" ∨ a = "futures")
    (hb : b = "spot" ∨ b = "futures") (hba : b ≠ a) : ¬ Isolated syncs symbol a := by
  have hlast : snap.lastUpdateId < 2 ^ 64 := Nat.lt_of_succ_lt hroom
  -- one message serves for both streams: it joins the snapshot, and a second time it is a gap
  obtain ⟨data, hdata⟩ : ∃ data,
      data = depthMessage symbol snap.lastUpdateId (snap.lastUpdateId + 1) (some snap.lastUpdateId) := ⟨_, rfl⟩
  have hevent : depthEvent data
      = ⟨snap.lastUpdateId, snap.lastUpdateId + 1, some snap.lastUpdateId, data⟩ := by
    rw [hdata]
    apply depthEvent_depthMessage hlast hroom
    intro p hp
    exact Option.some.inj hp ▸ hlast
  have hroute : Routes data symbol := hdata ▸ routes_depthMessage hne _ _ _
  have hself : actualData data = data := hdata ▸ actualData_depthMessage ..
  have hjoin := handleDepth_joins hs hsnap hbuf (by rw [hevent]; exact Nat.lt_succ_self _)
    (by rw [hevent]; exact ⟨⟨Nat.le_refl _, Nat.le_succ _⟩, Or.inr rfl, trivial⟩)
  apply not_isolated_of_lost hroute hroute hsome ha hb hba
  · rw [hself, hjoin]
    exact List.cons_ne_nil _ _
  · rw [hself, hjoin]
    apply handleDepth_gap rfl
    rw [hevent]
    rintro (h | h)
    · cases h
    · exact absurd (Option.some.inj h) (Nat.ne_of_lt (Nat.lt_succ_self _))

/-- **When the two streams of a symbol are isolated.** Right after initialisation, what is delivered for the
    spot stream is independent of the futures messages and the other way round exactly when the symbol's one
    synchroniser has no snapshot an event could join, so that nothing is delivered at all. -/
theorem streams_isolated_iff (config : ExchangeConfig) (fetched : String → String → Option BinanceSnapshot)
    (symbol : String) :
    (Isolated (initializeOrderbookSynchronizers config fetched) symbol "spot" ∧
      Isolated (initializeOrderbookSynchronizers config fetched) symbol "futures") ↔
    symbol = "" ∨ ∀ snap, sharedSnapshot (initializeOrderbookSynchronizers config fetched) symbol = some snap →
      ¬ snap.lastUpdateId + 1 < 2 ^ 64 := by
  constructor
  · rintro ⟨hspot, _⟩
    refine or_iff_not_imp_left.mpr fun hne snap hsnap hroom => ?_
    obtain ⟨s, hs, hsnap⟩ := Option.bind_eq_some_iff.mp hsnap
    -- one direction of the interference is enough to refute both
    rcases initialize_eq config fetched symbol with ⟨assetType, _, h⟩ | ⟨_, h⟩
    · obtain rfl := Option.some.inj (h.symm.trans hs)
      exact not_isolated (b := "futures") hne hs rfl hsnap rfl hroom (Or.inl rfl) (Or.inr rfl) (by decide) hspot
    · exact absurd (h.symm.trans hs) (by intro h; cases h)
  · intro h
    have hsilent : Silent symbol (initializeOrderbookSynchronizers config fetched) := by
      refine h.imp_right fun hroom s hs => ?_
      have hshared : ∀ snap, s.snapshot = some snap → ¬ snap.lastUpdateId + 1 < 2 ^ 64 := fun snap hsnap =>
        hroom snap (Option.bind_eq_some_iff.mpr ⟨s, hs, hsnap⟩)
      rcases initialize_eq config fetched symbol with ⟨assetType, _, h⟩ | ⟨_, h⟩
      · obtain rfl := Option.some.inj (h.symm.trans hs)
        exact ⟨rfl, hshared, .of_empty rfl⟩
      · exact absurd (h.symm.trans hs) (by intro h; cases h)
    exact ⟨.of_silent Silent.handlerStep Silent.not_delivers hsilent,
      .of_silent Silent.handlerStep Silent.not_delivers hsilent⟩

/-- One symbol as spot and as futures, both snapshots at 100. -/
def bothConfig : ExchangeConfig := ⟨["spot", "futures"], ["BTCUSDT"], ["BTCUSDT"], 20⟩
def bothFetched (symbol _assetType : String) : Option BinanceSnapshot := some ⟨symbol, 100, [], []⟩

/-- A depth message in the combined-stream wrapping of the subscribed stream. -/
def combinedFrame (assetType : String) (U u : Nat) (pu : Option Nat) : Frame where
  text      := some (.object [("stream", .string (bothConfig.orderbookStream assetType "BTCUSDT")),
    ("data", depthMessage "BTCUSDT" U u pu)])
  assetType := assetType

/-- The futures stream joins the snapshot and then has a gap. -/
def futuresFrames : List Frame :=
  [combinedFrame "futures" 95 105 (some 100), combinedFrame "futures" 120 130 (some 119)]

/-- The spot message joins the snapshot when it comes alone, and is lost after the two futures messages. -/
theorem spotMessage_lost :
    ((Machine.run handlerStep (initializeOrderbookSynchronizers bothConfig bothFetched)
      [combinedFrame "spot" 95 105 none]).2.filter (deliversFor "BTCUSDT" "spot")).length = 1 ∧
    ((Machine.run handlerStep (initializeOrderbookSynchronizers bothConfig bothFetched)
      (futuresFrames ++ [combinedFrame "spot" 95 105 none])).2.filter
        (deliversFor "BTCUSDT" "spot")).length = 0 ∧
    ¬ Isolated (initializeOrderbookSynchronizers bothConfig bothFetched) "BTCUSDT" "spot" := by
  have halone : ((Machine.run handlerStep (initializeOrderbookSynchronizers bothConfig bothFetched)
      [combinedFrame "spot" 95 105 none]).2.filter (deliversFor "BTCUSDT" "spot")).length = 1 := by decide +kernel
  have hlast : ((Machine.run handlerStep (initializeOrderbookSynchronizers bothConfig bothFetched)
      (futuresFrames ++ [combinedFrame "spot" 95 105 none])).2.filter
        (deliversFor "BTCUSDT" "spot")).length = 0 := by decide +kernel
  refine ⟨halone, hlast, fun hiso => ?_⟩
  have hspot : IsDepthFrame (combinedFrame "spot" 95 105 none) :=
    ⟨Or.inl rfl, _, rfl, by decide +kernel, by decide +kernel⟩
  have hfutures : ∀ f ∈ futuresFrames, IsDepthFrame f := by
    intro f hf
    rcases List.mem_pair.mp hf with rfl | rfl
    · exact ⟨Or.inr rfl, _, rfl, by decide +kernel, by decide +kernel⟩
    · exact ⟨Or.inr rfl, _, rfl, by decide +kernel, by decide +kernel⟩
  have hrun := hiso [combinedFrame "spot" 95 105 none] (futuresFrames ++ [combinedFrame "spot" 95 105 none])
    (by simp [hspot])
    (by intro f hf; rcases List.mem_append.mp hf with hf | hf
        · exact hfutures f hf
        · exact List.mem_singleton.mp hf ▸ hspot)
    rfl
  -- the same deliveries cannot be one and none
  exact absurd (halone.symm.trans ((congrArg List.length hrun).trans hlast)) (by decide)

end Feed
end TradingPlatform
