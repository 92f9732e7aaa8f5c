import TradingPlatform.Feed.Routing

/-!
# `Feed.PartialDepth` — partial-depth payloads

The streams the handler subscribes to send `{lastUpdateId, bids, asks}`, without `u`, `U` or `pu`. The code
behind the synchroniser reads these fields, the synchroniser does not: such a message has the final id 0 and
is dropped by every attempt to synchronise, and passes every validation.
-/

namespace TradingPlatform
namespace Feed

open Json BinanceOrderbookSynchronizer BufferedDepthEvent

/-- A partial-depth message of the symbol, with its `lastUpdateId`. -/
def IsPartialDepth (symbol : String) (lastUpdateId : Nat) (value : Value) : Prop :=
  Routes value symbol ∧ ∃ id bids asks, id.asU64? = some lastUpdateId ∧
    actualData value = .object [("lastUpdateId", id), ("bids", .array bids), ("asks", .array asks)]

/-- The `lastUpdateId` of a payload. -/
def payloadId (data : Value) : Option Nat := (data.get? "lastUpdateId").bind Value.asU64?

theorem IsPartialDepth.payloadId_eq {symbol : String} {lastUpdateId : Nat} {value : Value}
    (h : IsPartialDepth symbol lastUpdateId value) : payloadId (actualData value) = some lastUpdateId := by
  obtain ⟨_, id, bids, asks, hid, hdata⟩ := h
  rw [hdata]
  exact hid

/-- To the synchroniser the message carries no ids. -/
theorem IsPartialDepth.depthEvent_eq {symbol : String} {lastUpdateId : Nat} {value : Value}
    (h : IsPartialDepth symbol lastUpdateId value) :
    depthEvent (actualData value) = ⟨0, 0, none, actualData value⟩ := by
  obtain ⟨_, id, bids, asks, _, hdata⟩ := h
  rw [hdata]
  rfl

/-! ## At the synchroniser -/

/-- Synchronised, the message passes and the state stays synchronised. -/
theorem handleDepth_synced {s : BinanceOrderbookSynchronizer} {data : Value}
    (hdata : (depthEvent data).prevUpdateId = none) (hs : s.isSynchronized = true) :
    (handleDepth s data).1.isSynchronized = true ∧ (handleDepth s data).2 = [data] := by
  rcases handleDepth_of_synced hs data with ⟨_, hr⟩ | ⟨hgap, _⟩
  · rw [hr]
    exact ⟨hs, rfl⟩
  · exact absurd (follows_none hdata _) hgap

/-- Not synchronised but with a snapshot, the message is not among what leaves, and the buffer is empty
    afterwards. -/
theorem handleDepth_unsynced {s : BinanceOrderbookSynchronizer} {data : Value} {snap : BinanceSnapshot}
    (hdata : (depthEvent data).finalUpdateId = 0) (hs : s.isSynchronized = false)
    (hsnap : s.snapshot = some snap) (hbuf : Genuine s) :
    data ∉ (handleDepth s data).2 ∧ (handleDepth s data).1.eventBuffer = [] ∧
      (handleDepth s data).1.snapshot = some snap := by
  rcases handleDepth_of_unsynced hs data with ⟨hnone, _⟩ | ⟨snap', _, ⟨_, hr⟩ | ⟨_, hr⟩⟩
  · exact absurd (hsnap.symm.trans hnone) (by intro h; cases h)
  · rw [hr]
    refine ⟨fun hmem => ?_, rfl, hsnap⟩
    obtain ⟨e, he, heq⟩ := List.mem_map.mp hmem
    have hpast : snap'.lastUpdateId < e.finalUpdateId := of_decide_eq_true (List.mem_filter.mp he).2
    have hgen : depthEvent e.data = e := hbuf.pending snap'.lastUpdateId data e he
    -- a retained event has a final id past the snapshot, this message has 0
    rw [← hgen, heq, hdata] at hpast
    exact Nat.not_lt_zero _ hpast
  · rw [hr]
    exact ⟨List.not_mem_nil, rfl, hsnap⟩

/-- From a synchronised state every message without `pu` is delivered. -/
theorem run_synced {s : BinanceOrderbookSynchronizer} {datas : List Value}
    (hdatas : ∀ data ∈ datas, (depthEvent data).prevUpdateId = none) (hs : s.isSynchronized = true) :
    (Machine.run syncStep s (datas.map .message)).2 = datas := by
  induction datas generalizing s with
  | nil => rfl
  | cons data datas ih =>
      obtain ⟨hs', hout⟩ := handleDepth_synced (hdatas data (List.mem_cons_self ..)) hs
      show (handleDepth s data).2 ++ (Machine.run syncStep (handleDepth s data).1 (datas.map .message)).2 = _
      rw [hout, ih (fun d hd => hdatas d (List.mem_cons_of_mem _ hd)) hs']
      rfl

/-- From an empty buffer nothing but the messages themselves can leave. -/
theorem run_subset {s : BinanceOrderbookSynchronizer} {datas : List Value}
    (hdatas : ∀ data ∈ datas, (depthEvent data).prevUpdateId = none ∧ (depthEvent data).finalUpdateId = 0)
    {snap : BinanceSnapshot} (hsnap : s.snapshot = some snap) (hbuf : s.eventBuffer = []) :
    ∀ data ∈ (Machine.run syncStep s (datas.map .message)).2, data ∈ datas := by
  induction datas generalizing s with
  | nil => intro data hdata; cases hdata
  | cons d datas ih =>
      have hrest := fun d' hd' => hdatas d' (List.mem_cons_of_mem d hd')
      obtain ⟨hpu, hfinal⟩ := hdatas d (List.mem_cons_self ..)
      cases hs : s.isSynchronized with
      | true =>
          rw [run_synced (fun d' hd' => (hdatas d' hd').1) hs]
          exact fun _ h => h
      | false =>
          intro data hdata
          rcases List.mem_append.mp hdata with hdata | hdata
          · change data ∈ (handleDepth s d).2 at hdata
            have hstep := depthStep s d
            generalize handleDepth s d = r at hstep hdata
            cases hstep with
            | deliver => exact List.mem_singleton.mp hdata ▸ List.mem_cons_self ..
            | gap => cases hdata
            | wait => cases hdata
            | reject => cases hdata
            | join =>
                obtain ⟨e, he, rfl⟩ := List.mem_map.mp hdata
                rcases mem_pending he with hold | rfl
                · rw [hbuf] at hold
                  cases hold
                · exact List.mem_cons_self ..
          · obtain ⟨_, hempty, hkeep⟩ := handleDepth_unsynced hfinal hs hsnap (.of_empty hbuf)
            exact List.mem_cons_of_mem _ (ih hrest hkeep hempty data hdata)

/-! ## At the handler -/

/-- The map after some frames. -/
def handled (config : ExchangeConfig) (fetched : String → String → Option BinanceSnapshot)
    (frames : List Frame) : Synchronizers :=
  (Machine.run handlerStep (initializeOrderbookSynchronizers config fetched) frames).1

/-- Every synchroniser of the map has a genuine buffer. -/
def EachGenuine (syncs : Synchronizers) : Prop := ∀ symbol s, syncs symbol = some s → Genuine s

theorem eachGenuine_init (config : ExchangeConfig) (fetched : String → String → Option BinanceSnapshot) :
    EachGenuine (initializeOrderbookSynchronizers config fetched) := by
  intro symbol s hs
  rcases initialize_eq config fetched symbol with ⟨_, _, h⟩ | ⟨_, h⟩
  · obtain rfl := Option.some.inj (h.symm.trans hs)
    exact .of_empty rfl
  · exact absurd (h.symm.trans hs) (by intro h; cases h)

theorem EachGenuine.handlerStep (syncs : Synchronizers) (frame : Frame) (h : EachGenuine syncs) :
    EachGenuine (handlerStep syncs frame).1 :=
  handlerStep_invariant (P := fun _ s => Genuine s) (fun _ _ data h => h.syncStep (.message data)) h frame

theorem genuine_handled {config : ExchangeConfig} {fetched : String → String → Option BinanceSnapshot}
    {frames : List Frame} {symbol : String} {s : BinanceOrderbookSynchronizer}
    (hs : handled config fetched frames symbol = some s) : Genuine s :=
  Machine.run_invariant EachGenuine.handlerStep (eachGenuine_init config fetched) frames symbol s hs

/-- **When partial-depth messages are published.** After any earlier frames, of a sequence of partial-depth
    messages with increasing ids all are handed on exactly when the symbol's synchroniser is synchronised
    already, or there is none of them. -/
theorem partialDepth_published_iff (config : ExchangeConfig)
    (fetched : String → String → Option BinanceSnapshot) (earlier : List Frame) {symbol : String}
    {s : BinanceOrderbookSynchronizer} {snap : BinanceSnapshot}
    (hs : handled config fetched earlier symbol = some s) (hsnap : s.snapshot = some snap)
    (assetType : String) {msgs : List (Nat × Value)} (hmsgs : ∀ m ∈ msgs, IsPartialDepth symbol m.1 m.2)
    (hinc : (msgs.map Prod.fst).Pairwise (· < ·)) :
    (∀ m ∈ msgs, .orderbook (actualData m.2) symbol assetType ∈
      (Machine.run handlerStep (handled config fetched earlier)
        (msgs.map fun m => ⟨some m.2, assetType⟩)).2) ↔
      msgs = [] ∨ s.isSynchronized = true := by
  have hroutes : ∀ v ∈ msgs.map Prod.snd, Routes v symbol := by
    intro v hv
    obtain ⟨m, hm, rfl⟩ := List.mem_map.mp hv
    exact (hmsgs m hm).1
  have hout := (run_routed assetType hroutes hs).2
  simp only [List.map_map] at hout
  have hdatas : ∀ data ∈ msgs.map (fun m => actualData m.2),
      (depthEvent data).prevUpdateId = none ∧ (depthEvent data).finalUpdateId = 0 := by
    intro data hdata
    obtain ⟨m, hm, rfl⟩ := List.mem_map.mp hdata
    rw [(hmsgs m hm).depthEvent_eq]
    exact ⟨rfl, rfl⟩
  have hmem : ∀ data, .orderbook data symbol assetType ∈
      (Machine.run handlerStep (handled config fetched earlier) (msgs.map fun m => ⟨some m.2, assetType⟩)).2 ↔
      data ∈ (Machine.run syncStep s ((msgs.map fun m => actualData m.2).map .message)).2 := by
    intro data
    rw [List.map_map]
    show _ ∈ (Machine.run handlerStep _ (msgs.map ((fun v => (⟨some v, assetType⟩ : Frame)) ∘ Prod.snd))).2 ↔ _
    rw [hout, List.mem_map]
    constructor
    · rintro ⟨d, hd, heq⟩
      injection heq with heq
      exact heq ▸ hd
    · exact fun hd => ⟨data, hd, rfl⟩
  constructor
  · intro hall
    by_contra hno
    obtain ⟨hne, hunsync⟩ := not_or.mp hno
    obtain ⟨m, rest, rfl⟩ := List.exists_cons_of_ne_nil hne
    -- the first message is the one that is lost
    have hfirst := hdatas (actualData m.2) (List.mem_cons_self ..)
    obtain ⟨hnot, hbuf, hkeep⟩ := handleDepth_unsynced hfirst.2 (Bool.eq_false_iff.mpr hunsync) hsnap
      (genuine_handled hs)
    rcases List.mem_append.mp ((hmem _).mp (hall m (List.mem_cons_self ..))) with hnow | hlater
    · exact hnot hnow
    · -- later steps deliver later messages only, whose ids are larger
      have hmem' := run_subset (fun d hd => hdatas d (List.mem_cons_of_mem _ hd)) hkeep hbuf _ hlater
      obtain ⟨m', hm', heq⟩ := List.mem_map.mp hmem'
      have hid := (hmsgs m' (List.mem_cons_of_mem _ hm')).payloadId_eq
      rw [heq, (hmsgs m (List.mem_cons_self ..)).payloadId_eq] at hid
      have hlt := (List.pairwise_cons.mp hinc).1 m'.1 (List.mem_map_of_mem hm')
      exact Nat.lt_irrefl _ (Option.some.inj hid ▸ hlt)
  · rintro (rfl | hsync) m hm
    · cases hm
    · rw [hmem, run_synced (fun d hd => (hdatas d hd).1) hsync]
      exact List.mem_map_of_mem hm

/-- One spot symbol, its snapshot at 100. -/
def spotConfig : ExchangeConfig := ⟨["spot"], ["BTCUSDT"], [], 20⟩
def fetchedAt100 (symbol _assetType : String) : Option BinanceSnapshot := some ⟨symbol, 100, [], []⟩

/-- A message of the stream this configuration subscribes to. -/
def partialMessage (lastUpdateId : Nat) : Value :=
  .object [("stream", .string (spotConfig.orderbookStream "spot" "BTCUSDT")),
    ("data", .object [("lastUpdateId", Value.ofNat lastUpdateId),
      ("bids", .array [.array [.string "100.0", .string "1.0"]]), ("asks", .array [])])]

theorem partialMessage_101 : IsPartialDepth "BTCUSDT" 101 (partialMessage 101) :=
  ⟨⟨by decide +kernel, by decide +kernel, by decide +kernel, by decide⟩, _, _, _, rfl, rfl⟩

/-- A diff event that joins the snapshot. -/
def diffFrames : List Frame := [⟨some (depthMessage "BTCUSDT" 95 101 none), "spot"⟩]

theorem partialMessage_published :
    .orderbook (actualData (partialMessage 101)) "BTCUSDT" "spot" ∈
      (Machine.run handlerStep (handled spotConfig fetchedAt100 diffFrames)
        [⟨some (partialMessage 101), "spot"⟩]).2 :=
  (@partialDepth_published_iff spotConfig fetchedAt100 diffFrames "BTCUSDT"
    ((handled spotConfig fetchedAt100 diffFrames "BTCUSDT").get (by decide +kernel)) ⟨"BTCUSDT", 100, [], []⟩
    (Option.some_get _).symm (by decide +kernel) "spot" [(101, partialMessage 101)]
    (by intro m hm; obtain rfl := List.mem_singleton.mp hm; exact partialMessage_101)
    (List.pairwise_singleton ..)).mpr (Or.inr (by decide +kernel)) _ (List.mem_singleton_self _)

/-- With the snapshot alone the message is dropped. -/
theorem partialMessage_dropped :
    IsPartialDepth "BTCUSDT" 101 (partialMessage 101) ∧
    ((handled spotConfig fetchedAt100 [] "BTCUSDT").bind BinanceOrderbookSynchronizer.snapshot).map
      BinanceSnapshot.lastUpdateId = some 100 ∧
    .orderbook (actualData (partialMessage 101)) "BTCUSDT" "spot" ∉
      (Machine.run handlerStep (handled spotConfig fetchedAt100 []) [⟨some (partialMessage 101), "spot"⟩]).2 := by
  refine ⟨partialMessage_101, by decide +kernel, fun hmem => ?_⟩
  have hnil : (Machine.run handlerStep (handled spotConfig fetchedAt100 [])
      [⟨some (partialMessage 101), "spot"⟩]).2 = [] := List.eq_nil_of_length_eq_zero (by decide +kernel)
  rw [hnil] at hmem
  cases hmem

end Feed
end TradingPlatform
