import TradingPlatform.Crypto.Feed
import TradingPlatform.Library.Machine

/-!
# `Crypto.Bybit` — the Bybit feed, from messages to published books

`process_bybit_message` reads the symbol, the levels and the type of an order-book message out of its `data`
object and hands an update to the builder of the symbol. In a v5 message the type stands next to `data`, not in it.
The handler then sees none, and the builder ignores the update. `V5Message.typeInData` says whether `data` repeats
the type; with it, the books published are the reference books (`bybit_publishes_reference_iff`).
-/

namespace TradingPlatform
namespace Crypto

open Json Rust Sender Ladder Manager

/-! ## The handler -/

namespace Bybit

/-- `[price, quantity]`, both strings; anything else is skipped. -/
def readLevel (pricePrecision quantityPrecision : Nat) (level : Value) : Option (Int × Int) := do
  let priceStr ← (level.getIdx? 0).bind Value.asStr?
  let qtyStr ← (level.getIdx? 1).bind Value.asStr?
  return (parseToScaledOrDefault priceStr pricePrecision, parseToScaledOrDefault qtyStr quantityPrecision)

def readLevels (pricePrecision quantityPrecision : Nat) (levels : Option Value) : List (Int × Int) :=
  ((levels.bind Value.asArray?).getD []).filterMap (readLevel pricePrecision quantityPrecision)

/-- `data["T"]`; if missing, top-level `ts` or `cts`. -/
def readTimestamp (value data : Value) : Nat :=
  ((((data.get? "T").bind Value.asI64?).or ((value.get? "ts").bind Value.asI64?)).or
    ((value.get? "cts").bind Value.asI64?)).getD 0 |>.toNat

def updateOf (context : Context) (commonSymbol : String) (value : Value) : BybitOrderBookUpdate :=
  let data := value.index "data"
  let pricePrecision := context.feedConfig.getPricePrecision commonSymbol
  let quantityPrecision := context.feedConfig.getQuantityPrecision commonSymbol
  { messageType       := ((data.get? "type").bind Value.asStr?).getD "unknown"
    bids              := readLevels pricePrecision quantityPrecision (data.get? "b")
    asks              := readLevels pricePrecision quantityPrecision (data.get? "a")
    timestamp         := readTimestamp value data
    pricePrecision    := pricePrecision
    quantityPrecision := quantityPrecision
    timestampUnit     := context.feedConfig.timestampUnit }

/-- The update an order-book message makes, and the symbol whose channel it goes to. Subscription responses, trades
    and other topics make none. -/
def processBybitMessage (context : Context) (value : Value) : Option (String × BybitOrderBookUpdate) :=
  if (value.get? "op").bind Value.asStr? = some "subscribe" then none
  else
    match (value.get? "topic").bind Value.asStr? with
    | none       => none
    | some topic =>
      if startsWith topic "publicTrade" then none
      else if startsWith topic "orderbook" then
        let commonSymbol := context.commonSymbol "Bybit"
          (((value.index "data").get? "s").bind Value.asStr? |>.getD "")
        some (commonSymbol, updateOf context commonSymbol value)
      else none

/-! ## The feed -/

/-- One message, and its update in the builder: channels that are never full hold nothing back. -/
def step (context : Context) (builders : Builders) (value : Value) : Builders × List OrderBookData :=
  match processBybitMessage context value with
  | none      => (builders, [])
  | some sent => deliver BybitOrderBookBuilder.processUpdate builders sent

/-- The books published while the messages come in. -/
def published (context : Context) (allSymbols : List (String × String)) (messages : List Value) :
    List OrderBookData :=
  (Machine.run (step context) (spawnBuilders context "Bybit" allSymbols) messages).2

/-! ## v5 messages -/

inductive V5Type where
  | snapshot
  | delta
deriving DecidableEq

def V5Type.name : V5Type → String
  | snapshot => "snapshot"
  | delta    => "delta"

/-- An order-book message; its levels are pairs of price and quantity. -/
structure V5Message where
  topic      : String
  kind       : V5Type
  ts         : Nat
  symbol     : String
  bids       : List (Numeral × Numeral)
  asks       : List (Numeral × Numeral)
  updateId   : Nat
  seq        : Nat
  /-- `data` has a copy of the type. -/
  typeInData : Bool

namespace V5Message

def side (m : V5Message) (isBid : Bool) : List (Numeral × Numeral) := if isBid then m.bids else m.asks

def levelJson (level : Numeral × Numeral) : Value := .array [.string level.1.text, .string level.2.text]

def dataJson (m : V5Message) : Value :=
  .object ([("s", .string m.symbol), ("b", .array (m.bids.map levelJson)), ("a", .array (m.asks.map levelJson)),
    ("u", .ofNat m.updateId), ("seq", .ofNat m.seq)]
      ++ if m.typeInData then [("type", .string m.kind.name)] else [])

def json (m : V5Message) : Value :=
  .object [("topic", .string m.topic), ("type", .string m.kind.name), ("ts", .ofNat m.ts), ("data", m.dataJson)]

variable (context : Context)

def common (m : V5Message) : String := context.commonSymbol "Bybit" m.symbol

/-- Prices and quantities in units of the symbol's precisions. -/
def units (m : V5Message) (isBid : Bool) : List (Int × Int) :=
  (m.side isBid).map fun level =>
    (Crypto.units (context.feedConfig.getPricePrecision (m.common context)) level.1,
      Crypto.units (context.feedConfig.getQuantityPrecision (m.common context)) level.2)

/-- The numbers are in range of what they are stored in. -/
structure Valid (m : V5Message) : Prop where
  topic             : startsWith m.topic "orderbook" = true
  ts                : m.ts < 2 ^ 63
  nanoseconds       : m.ts * context.feedConfig.timestampUnit.nanosecondsPer < 2 ^ 64
  pricePrecision    : context.feedConfig.getPricePrecision (m.common context) ≤ 18
  quantityPrecision : context.feedConfig.getQuantityPrecision (m.common context) ≤ 18
  levels            : ∀ isBid, ∀ level ∈ m.side isBid,
    InRange level.1 (context.feedConfig.getPricePrecision (m.common context)) ∧
      InRange level.2 (context.feedConfig.getQuantityPrecision (m.common context))

end V5Message

/-! ## The reference book -/

/-- The books by common symbol. -/
abbrev Books := String → Option OrderBookData

/-- A side after a message: replaced on a snapshot; on a delta, quantity 0 deletes and any other overwrites. -/
def referenceSide (context : Context) (m : V5Message) (isBid : Bool) (levels : List (Int × Int)) : List (Int × Int) :=
  match m.kind with
  | .snapshot => replay (better isBid) [] ((m.units context isBid).map fun level => (level.1, some level.2))
  | .delta    => replay (better isBid) levels
      ((m.units context isBid).map fun level => (level.1, if level.2 = 0 then none else some level.2))

/-- The book of the symbol after a message, best levels first. -/
def referenceBook (context : Context) (allSymbols : List (String × String)) (book : Option OrderBookData)
    (m : V5Message) : OrderBookData :=
  bookOf context "Bybit" allSymbols (m.common context) m.ts
    (referenceSide context m true ((book.map OrderBookData.bids).getD []))
    (referenceSide context m false ((book.map OrderBookData.asks).getD []))

def referenceStep (context : Context) (allSymbols : List (String × String)) (books : Books) (m : V5Message) :
    Books × List OrderBookData :=
  let book := referenceBook context allSymbols (books (m.common context)) m
  (Function.update books (m.common context) (some book), [book])

/-- The reference book after each message. -/
def reference (context : Context) (allSymbols : List (String × String)) (messages : List V5Message) :
    List OrderBookData :=
  (Machine.run (referenceStep context allSymbols) (fun _ => none) messages).2

/-- The first message of a symbol is a snapshot, those in `seen` apart. -/
def SnapshotFirst (context : Context) : List String → List V5Message → Prop
  | _, []            => True
  | seen, m :: rest  =>
    (m.kind = .snapshot ∨ m.common context ∈ seen) ∧ SnapshotFirst context (m.common context :: seen) rest

/-- A stream the feed is subscribed to. -/
structure V5Stream (context : Context) (allSymbols : List (String × String)) (messages : List V5Message) : Prop where
  valid         : ∀ m ∈ messages, m.Valid context
  subscribed    : ∀ m ∈ messages, m.symbol ∈ allSymbols.map Prod.fst
  snapshotFirst : SnapshotFirst context [] messages

/-! ## Reading a v5 message -/

/-- The update the handler makes of a message. -/
def V5Message.update (context : Context) (m : V5Message) : BybitOrderBookUpdate where
  messageType       := if m.typeInData then m.kind.name else "unknown"
  bids              := m.units context true
  asks              := m.units context false
  timestamp         := m.ts
  pricePrecision    := context.feedConfig.getPricePrecision (m.common context)
  quantityPrecision := context.feedConfig.getQuantityPrecision (m.common context)
  timestampUnit     := context.feedConfig.timestampUnit

variable {context : Context} {allSymbols : List (String × String)} {m : V5Message}

theorem readLevels_units (h : m.Valid context) (isBid : Bool) :
    readLevels (context.feedConfig.getPricePrecision (m.common context))
        (context.feedConfig.getQuantityPrecision (m.common context))
        (some (.array ((m.side isBid).map V5Message.levelJson))) = m.units context isBid := by
  have hlevels := h.levels isBid
  rw [readLevels, V5Message.units]
  show List.filterMap _ ((m.side isBid).map V5Message.levelJson) = _
  rw [List.filterMap_map]
  generalize m.side isBid = levels at hlevels
  induction levels with
  | nil => rfl
  | cons level levels ih =>
      obtain ⟨hprice, hquantity⟩ := hlevels level List.mem_cons_self
      rw [List.map_cons, ← ih fun l hl => hlevels l (List.mem_cons_of_mem _ hl),
        ← hprice.parseToScaledOrDefault h.pricePrecision, ← hquantity.parseToScaledOrDefault h.quantityPrecision]
      rfl

/-- What is found in `data`, whether the type is there or not. -/
theorem dataJson_get? {key : String} (hkey : key ≠ "type") :
    m.dataJson.get? key = List.lookup key [("s", .string m.symbol), ("b", .array (m.bids.map V5Message.levelJson)),
      ("a", .array (m.asks.map V5Message.levelJson)), ("u", .ofNat m.updateId), ("seq", .ofNat m.seq)] := by
  refine Value.get?_append fun field hfield => ?_
  cases htype : m.typeInData with
  | false =>
      rw [htype, if_neg Bool.false_ne_true] at hfield
      cases hfield
  | true =>
      rw [htype, if_pos rfl] at hfield
      rw [List.mem_singleton.mp hfield]
      exact hkey.symm

theorem readTimestamp_json (hts : m.ts < 2 ^ 63) : readTimestamp m.json m.dataJson = m.ts := by
  have hT : m.dataJson.get? "T" = none := by
    rw [dataJson_get? (by decide)]
    rfl
  have hvalue : m.json.get? "ts" = some (.ofNat m.ts) := rfl
  rw [readTimestamp, hT, hvalue, Option.bind_none, Option.none_or, Option.bind_some, Value.asI64?_ofNat hts]
  rfl

/-- **The handler reads the message**, except for its type. -/
theorem processBybitMessage_json (h : m.Valid context) :
    processBybitMessage context m.json = some (m.common context, m.update context) := by
  have hop : (m.json.get? "op").bind Value.asStr? = none := rfl
  have htopic : (m.json.get? "topic").bind Value.asStr? = some m.topic := rfl
  have hindex : m.json.index "data" = m.dataJson := rfl
  have hsymbol : ((m.dataJson.get? "s").bind Value.asStr?).getD "" = m.symbol := by
    rw [dataJson_get? (by decide)]
    rfl
  have hbids : m.dataJson.get? "b" = some (.array ((m.side true).map V5Message.levelJson)) :=
    dataJson_get? (by decide)
  have hasks : m.dataJson.get? "a" = some (.array ((m.side false).map V5Message.levelJson)) :=
    dataJson_get? (by decide)
  have htype : ((m.dataJson.get? "type").bind Value.asStr?).getD "unknown" =
      if m.typeInData then m.kind.name else "unknown" := by
    unfold V5Message.dataJson
    cases m.typeInData
    · rfl
    · rfl
  have hnotTrade := @startsWith_other _ _ "publicTrade" h.topic (by decide) (by decide)
  rw [processBybitMessage, hop, if_neg (Option.some_ne_none _).symm, htopic]
  simp only [hnotTrade, h.topic, if_true, Bool.false_eq_true, if_false, hindex, hsymbol]
  rw [← V5Message.common, updateOf]
  simp only [hindex, htype, hbids, hasks, readLevels_units h, readTimestamp_json h.ts]
  rfl

/-! ## The feed against the reference -/

/-- The builders have the reference books, and what is left of the stream goes on from there. -/
structure Agrees (context : Context) (allSymbols : List (String × String)) (builders : Builders) (books : Books)
    (rest : List V5Message) : Prop where
  spawned       : ∀ c b, spawnBuilders context "Bybit" allSymbols c = some b →
    builders c = some { b with orderbook := books c }
  shape         : ∀ c book, books c = some book →
    ∃ timestamp, book = bookOf context "Bybit" allSymbols c timestamp book.bids book.asks
  sorted        : ∀ c book, books c = some book → ∀ isBid, Sorted (better isBid) (book.levels isBid)
  valid         : ∀ m ∈ rest, m.Valid context
  subscribed    : ∀ m ∈ rest, m.symbol ∈ allSymbols.map Prod.fst
  snapshotFirst : ∃ seen, SnapshotFirst context seen rest ∧ ∀ c ∈ seen, (books c).isSome

/-- The type is where the handler looks for it, and a snapshot lists its sides best first. -/
def Recognised (context : Context) (m : V5Message) : Prop :=
  m.typeInData = true ∧ (m.kind = .snapshot → ∀ isBid, Sorted (better isBid) (m.units context isBid))

variable {builders : Builders} {books : Books} {rest : List V5Message}

/-- The message reaches the builder of its symbol. -/
theorem Agrees.step_json (h : Agrees context allSymbols builders books (m :: rest)) :
    step context builders m.json =
      let b := { OrderBookBuilder.new "Bybit" (m.common context)
          (assetTypeOf context "Bybit" allSymbols (m.common context)) with orderbook := books (m.common context) }
      (Function.update builders (m.common context)
          (taskStep BybitOrderBookBuilder.processUpdate b (m.update context)).1,
        (taskStep BybitOrderBookBuilder.processUpdate b (m.update context)).2) := by
  obtain ⟨b, hb⟩ := exists_spawned context "Bybit" (h.subscribed m List.mem_cons_self)
  have hbuilder := h.spawned _ b hb
  rw [spawnBuilders_some hb] at hbuilder
  rw [step, processBybitMessage_json (h.valid m List.mem_cons_self)]
  dsimp only [deliver]
  rw [V5Message.common, hbuilder]

/-- Without its type a message changes nothing. -/
theorem processUpdate_unknown (htype : m.typeInData = false) (b : OrderBookBuilder) :
    BybitOrderBookBuilder.processUpdate b (m.update context) = (b, []) := by
  have hunknown : (m.update context).messageType = "unknown" := by
    rw [V5Message.update, htype]
    rfl
  rw [BybitOrderBookBuilder.processUpdate, OrderBookBuilder.process, hunknown, if_neg (by decide), if_neg (by decide)]

theorem processUpdate_snapshot (htype : m.typeInData = true) (hkind : m.kind = .snapshot) (b : OrderBookBuilder) :
    BybitOrderBookBuilder.processUpdate b (m.update context) =
      ({ b with orderbook := some (b.replace (m.update context)) }, [b.replace (m.update context)]) := by
  have hname : (m.update context).messageType = "snapshot" := by
    rw [V5Message.update, htype, hkind]
    rfl
  rw [BybitOrderBookBuilder.processUpdate, OrderBookBuilder.process, if_pos hname]

theorem processUpdate_delta (htype : m.typeInData = true) (hkind : m.kind = .delta) {b : OrderBookBuilder}
    {orderbook : OrderBookData} (hb : b.orderbook = some orderbook) :
    BybitOrderBookBuilder.processUpdate b (m.update context) =
      ({ b with orderbook := some (OrderBookBuilder.amend orderbook (m.update context)) },
        [OrderBookBuilder.amend orderbook (m.update context)]) := by
  refine OrderBookBuilder.process_incremental (by decide) ?_ hb
  rw [V5Message.update, htype, hkind]
  rfl

theorem sendable_referenceBook (h : m.Valid context) (book : Option OrderBookData) :
    Sendable (referenceBook context allSymbols book m) :=
  sendable h.nanoseconds h.pricePrecision h.quantityPrecision

/-- What a builder with the reference book makes of a recognised message is the next reference book. -/
theorem Agrees.processUpdate (h : Agrees context allSymbols builders books (m :: rest)) (hm : Recognised context m)
    (b : OrderBookBuilder) (hb : b = { OrderBookBuilder.new "Bybit" (m.common context)
      (assetTypeOf context "Bybit" allSymbols (m.common context)) with orderbook := books (m.common context) }) :
    BybitOrderBookBuilder.processUpdate b (m.update context) =
      ({ b with orderbook := some (referenceBook context allSymbols (books (m.common context)) m) },
        [referenceBook context allSymbols (books (m.common context)) m]) := by
  obtain ⟨htype, hsorted⟩ := hm
  cases hkind : m.kind with
  | snapshot =>
      have hside : ∀ isBid levels, referenceSide context m isBid levels = m.units context isBid := by
        intro isBid levels
        rw [referenceSide, hkind]
        exact replay_some_eq_iff.mpr (hsorted hkind isBid)
      rw [processUpdate_snapshot htype hkind, referenceBook, hside, hside, hb]
      rfl
  | delta =>
      -- The symbol has had its first message, so there is a book.
      obtain ⟨seen, hfirst, hseen⟩ := h.snapshotFirst
      have hmem : m.common context ∈ seen := hfirst.1.resolve_left (by rw [hkind]; decide)
      obtain ⟨book, hbook⟩ := Option.isSome_iff_exists.mp (hseen _ hmem)
      have hb' : b.orderbook = some book := by rw [hb, ← hbook]
      obtain ⟨timestamp, hshape⟩ := h.shape _ book hbook
      have hside : ∀ isBid levels, Sorted (better isBid) levels → referenceSide context m isBid levels =
          sortLevels isBid (OrderBookBuilder.applyLevels levels (m.units context isBid)) := by
        intro isBid levels hlevels
        rw [OrderBookBuilder.applyLevels, sortLevels_writeAll hlevels, referenceSide, hkind]
        rfl
      have hamend : OrderBookBuilder.amend book (m.update context) =
          referenceBook context allSymbols (some book) m := by
        rw [referenceBook, Option.map_some, Option.map_some, Option.getD_some, Option.getD_some,
          hside true book.bids (h.sorted _ book hbook true), hside false book.asks (h.sorted _ book hbook false),
          hshape]
        rfl
      rw [processUpdate_delta htype hkind hb', hbook, hamend]

theorem sorted_referenceSide (m : V5Message) {isBid : Bool} {levels : List (Int × Int)}
    (h : Sorted (better isBid) levels) : Sorted (better isBid) (referenceSide context m isBid levels) := by
  rw [referenceSide]
  cases m.kind with
  | snapshot => exact sorted_replay sorted_nil _
  | delta => exact sorted_replay h _

/-- **A recognised message** publishes the reference book. -/
theorem Agrees.next (h : Agrees context allSymbols builders books (m :: rest)) (hm : Recognised context m) :
    (step context builders m.json).2 = (referenceStep context allSymbols books m).2 ∧
      Agrees context allSymbols (step context builders m.json).1 (referenceStep context allSymbols books m).1 rest := by
  have hvalid := h.valid m List.mem_cons_self
  have hstep := h.step_json
  simp only [taskStep, h.processUpdate hm _ rfl, List.forall_mem_singleton] at hstep
  rw [if_pos (sendable_referenceBook hvalid _)] at hstep
  rw [hstep]
  dsimp only [referenceStep]
  refine ⟨rfl, ?_, ?_, ?_, fun m' hm' => h.valid m' (List.mem_cons_of_mem _ hm'),
    fun m' hm' => h.subscribed m' (List.mem_cons_of_mem _ hm'), ?_⟩
  · intro c b hspawned
    by_cases hc : c = m.common context
    · rw [hc] at hspawned ⊢
      rw [Function.update_self, Function.update_self, spawnBuilders_some hspawned]
    · rw [Function.update_of_ne hc, Function.update_of_ne hc, h.spawned c b hspawned]
  · intro c book hbook
    by_cases hc : c = m.common context
    · rw [hc] at hbook ⊢
      rw [Function.update_self] at hbook
      obtain rfl := Option.some.inj hbook
      exact ⟨m.ts, rfl⟩
    · rw [Function.update_of_ne hc] at hbook
      exact h.shape c book hbook
  · intro c book hbook isBid
    by_cases hc : c = m.common context
    · rw [hc, Function.update_self] at hbook
      obtain rfl := Option.some.inj hbook
      cases hold : books (m.common context) with
      | none => cases isBid <;> exact sorted_referenceSide m sorted_nil
      | some old =>
          have hsorted := h.sorted _ old hold
          cases isBid
          · exact sorted_referenceSide m (hsorted false)
          · exact sorted_referenceSide m (hsorted true)
    · rw [Function.update_of_ne hc] at hbook
      exact h.sorted c book hbook isBid
  · obtain ⟨seen, hfirst, hseen⟩ := h.snapshotFirst
    refine ⟨_, hfirst.2, fun c hc => ?_⟩
    by_cases heq : c = m.common context
    · rw [heq, Function.update_self]
      rfl
    · rw [Function.update_of_ne heq]
      exact hseen c ((List.mem_cons.mp hc).resolve_left heq)

/-- Any other publishes nothing, or a snapshot as it was listed. -/
theorem Agrees.differs (h : Agrees context allSymbols builders books (m :: rest)) (hm : ¬ Recognised context m) :
    (step context builders m.json).2 ≠ (referenceStep context allSymbols books m).2 := by
  rw [h.step_json]
  simp only [taskStep, referenceStep]
  cases htype : m.typeInData with
  | false =>
      rw [processUpdate_unknown htype]
      exact (List.cons_ne_nil _ _).symm
  | true =>
      have hbad : m.kind = .snapshot ∧ ∃ isBid, ¬ Sorted (better isBid) (m.units context isBid) := by
        by_contra hall
        refine hm ⟨htype, fun hkind isBid => ?_⟩
        by_contra hunsorted
        exact hall ⟨hkind, isBid, hunsorted⟩
      obtain ⟨hkind, isBid, hunsorted⟩ := hbad
      rw [processUpdate_snapshot htype hkind]
      intro heq
      have hside : m.units context isBid = referenceSide context m isBid
          (((books (m.common context)).map fun book => book.levels isBid).getD []) := by
        have hbook := List.singleton_inj.mp heq
        cases isBid
        · exact congrArg OrderBookData.asks hbook
        · exact congrArg OrderBookData.bids hbook
      rw [referenceSide, hkind] at hside
      exact hunsorted (replay_some_eq_iff.mp hside.symm)

theorem length_step_le (builders : Builders) (value : Value) : (step context builders value).2.length ≤ 1 := by
  unfold step
  split
  · exact Nat.zero_le 1
  · exact length_deliver_le (OrderBookBuilder.length_process_le "delta") _ _

theorem step_unknown (h : m.Valid context) (htype : m.typeInData = false) (builders : Builders) :
    (step context builders m.json).2 = [] := by
  rw [step, processBybitMessage_json h]
  dsimp only [deliver]
  split
  · rfl
  · rw [taskStep, processUpdate_unknown htype]

/-- **The feed publishes the reference books** exactly when every message has its type in `data` as well, and every
    snapshot lists its sides best first. When no message has its type there, nothing is published. -/
theorem bybit_publishes_reference_iff {messages : List V5Message} (h : V5Stream context allSymbols messages) :
    (published context allSymbols (messages.map V5Message.json) = reference context allSymbols messages ↔
      ∀ m ∈ messages, Recognised context m) ∧
    ((∀ m ∈ messages, m.typeInData = false) →
      published context allSymbols (messages.map V5Message.json) = []) := by
  have hstart : Agrees context allSymbols (spawnBuilders context "Bybit" allSymbols) (fun _ => none) messages := by
    refine ⟨fun c b hb => ?_, fun c book hbook => (nomatch hbook), fun c book hbook => (nomatch hbook), h.valid,
      h.subscribed, [], h.snapshotFirst, fun c hc => (nomatch hc)⟩
    rw [hb, spawnBuilders_some hb]
    rfl
  rw [published, Machine.run_map]
  refine ⟨?_, fun hnone => ?_⟩
  · have hiff := Machine.run_outputs_eq_iff (R := Agrees context allSymbols) (fun s m => length_step_le s m.json)
      (fun _ _ => rfl) (fun _ _ _ _ hR hm => hR.next hm) (fun _ _ _ _ hR hm => hR.differs hm) hstart
    exact hiff.trans Machine.guarded_iff_forall
  · exact Machine.run_silent (fun m hm builders => step_unknown (h.valid m hm) (hnone m hm) builders) _

/-! A snapshot and a delta of one symbol. -/

def btcContext : Context where
  symbolMapper := { exchanges := [] }
  feedConfig   := {
    pricePrecision := 8, quantityPrecision := 8, symbolPrecision := [], timestampUnit := .milliseconds }

/-- A numeral without a point, from its first digit and the others. -/
def wholeNumeral (first : Nat) (others : List Nat) : Numeral where
  sign      := none
  whole     := digit first :: others.map digit
  fraction  := none
  exponent  := none
  hasDigits := by simp

def btcSnapshot (typeInData : Bool) : V5Message where
  topic    := "orderbook.50.BTCUSDT"
  kind     := .snapshot
  ts       := 1700000000000
  symbol   := "BTCUSDT"
  bids     := [(wholeNumeral 5 [0, 0, 0, 0], wholeNumeral 2 [])]
  asks     := [(wholeNumeral 5 [0, 0, 0, 1], wholeNumeral 1 [])]
  updateId := 12345
  seq      := 98765
  typeInData := typeInData

/-- The ask is taken out, the bid overwritten. -/
def btcDelta (typeInData : Bool) : V5Message :=
  { btcSnapshot typeInData with
    kind     := .delta
    ts       := 1700000000100
    bids     := [(wholeNumeral 5 [0, 0, 0, 0], wholeNumeral 3 [])]
    asks     := [(wholeNumeral 5 [0, 0, 0, 1], wholeNumeral 0 [])]
    updateId := 12346
    seq      := 98766 }

theorem inRange_wholeNumeral {first : Nat} {others : List Nat}
    (h : (wholeNumeral first others).value * 10 ^ 8 < 2 ^ 63) : InRange (wholeNumeral first others) 8 :=
  ⟨rfl, rfl, List.cons_ne_nil _ _, fun _ hds => (nomatch hds), h⟩

theorem btcStream (typeInData : Bool) :
    V5Stream btcContext [("BTCUSDT", "spot")] [btcSnapshot typeInData, btcDelta typeInData] := by
  have hlevels : ∀ m ∈ [btcSnapshot typeInData, btcDelta typeInData], ∀ isBid, ∀ level ∈ m.side isBid,
      InRange level.1 8 ∧ InRange level.2 8 := by
    rintro m hm (_ | _) level hlevel <;> rcases List.mem_pair.mp hm with rfl | rfl <;>
      obtain rfl := List.mem_singleton.mp hlevel <;>
      exact ⟨inRange_wholeNumeral (by decide +kernel), inRange_wholeNumeral (by decide +kernel)⟩
  have hsymbol : ∀ m ∈ [btcSnapshot typeInData, btcDelta typeInData], m.symbol = "BTCUSDT" := by
    intro m hm
    rcases List.mem_pair.mp hm with rfl | rfl <;> rfl
  refine ⟨fun m hm => ?_, fun m hm => ?_, Or.inl rfl, Or.inr List.mem_cons_self, trivial⟩
  · have hm' := hm
    rcases List.mem_pair.mp hm with rfl | rfl <;> cases typeInData <;>
      exact ⟨by decide +kernel, by decide, by decide, by decide, by decide, hlevels _ hm'⟩
  · rw [hsymbol m hm]
    exact List.mem_singleton_self _

/-- As the exchange sends it, the stream publishes nothing. -/
theorem v5_stream_unpublished :
    V5Stream btcContext [("BTCUSDT", "spot")] [btcSnapshot false, btcDelta false] ∧
    published btcContext [("BTCUSDT", "spot")] ([btcSnapshot false, btcDelta false].map V5Message.json) = [] ∧
    reference btcContext [("BTCUSDT", "spot")] [btcSnapshot false, btcDelta false] =
      [bookOf btcContext "Bybit" [("BTCUSDT", "spot")] "BTCUSDT" 1700000000000 [(5000000000000, 200000000)]
          [(5000100000000, 100000000)],
        bookOf btcContext "Bybit" [("BTCUSDT", "spot")] "BTCUSDT" 1700000000100 [(5000000000000, 300000000)] []] :=
  ⟨btcStream false, by decide +kernel, by decide +kernel⟩

theorem btc_stream_published :
    published btcContext [("BTCUSDT", "spot")] ([btcSnapshot true, btcDelta true].map V5Message.json) =
      reference btcContext [("BTCUSDT", "spot")] [btcSnapshot true, btcDelta true] := by
  refine (bybit_publishes_reference_iff (btcStream true)).1.mpr fun m hm => ?_
  rcases List.mem_pair.mp hm with rfl | rfl
  · exact ⟨rfl, fun _ isBid => by cases isBid <;> exact List.pairwise_singleton _ _⟩
  · exact ⟨rfl, fun hkind => (nomatch hkind)⟩

end Bybit
end Crypto
end TradingPlatform
