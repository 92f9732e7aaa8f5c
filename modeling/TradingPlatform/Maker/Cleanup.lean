import TradingPlatform.Maker.Tracking

/-!
# `Maker.Cleanup` — cancelling all orders and closing all positions

The cleanup reports what its queries fail with. What the exchange says to the cancellation counts as success
whenever it is JSON, and a close order that is rejected is only printed. So a cleanup that returns `Ok` may have
left orders and positions behind (`cleanup_cleans_iff`).
-/

namespace TradingPlatform
namespace Maker

open Rust Json

/-! ## The exchange -/

/-- A number as the exchange writes it. -/
structure Decimal where
  text   : String
  value  : ℚ
  parses : parseF64 text = some value

def Decimal.zero : Decimal := ⟨"0.000", 0, by decide +kernel⟩

structure OpenOrder where
  symbol : String
  id     : UInt64

def OpenOrder.json (o : OpenOrder) : Value :=
  .object [("orderId", .number (.posInt o.id)), ("symbol", .string o.symbol), ("status", .string "NEW")]

/-- An entry of the positions; without a position its amount is zero. -/
structure PositionRisk where
  symbol           : String
  positionAmt      : Decimal
  entryPrice       : Decimal
  unRealizedProfit : Decimal

def PositionRisk.json (e : PositionRisk) : Value :=
  .object [("symbol", .string e.symbol), ("positionAmt", .string e.positionAmt.text),
    ("entryPrice", .string e.entryPrice.text), ("unRealizedProfit", .string e.unRealizedProfit.text)]

structure Exchange where
  openOrders : List OpenOrder
  positions  : List PositionRisk

/-- The entries a query is about: without a symbol it is about all. -/
def Asked (symbol : String) (e : PositionRisk) : Prop := symbol = "" ∨ e.symbol = symbol

instance (symbol : String) (e : PositionRisk) : Decidable (Asked symbol e) :=
  inferInstanceAs (Decidable (symbol = "" ∨ e.symbol = symbol))

/-- The open positions among them. -/
def Held (symbol : String) (e : PositionRisk) : Prop := Asked symbol e ∧ e.positionAmt.value ≠ 0

instance (symbol : String) (e : PositionRisk) : Decidable (Held symbol e) :=
  inferInstanceAs (Decidable (_ ∧ _))

namespace Exchange

def ordersOf (x : Exchange) (symbol : String) : List OpenOrder := x.openOrders.filter fun o => o.symbol = symbol

def entriesOf (x : Exchange) (symbol : String) : List PositionRisk := x.positions.filter fun e => Asked symbol e

end Exchange

/-- How a query for a list is answered: by the list, by an error object or not at all. -/
inductive Listing where
  | list
  | object (fields : List (String × Value))
  | lost

def Listing.answer (reply : Listing) (entries : List Value) : Answer :=
  match reply with
  | .list          => some (.array entries)
  | .object fields => some (.object fields)
  | .lost          => none

/-- The answers to the calls of a cleanup, except those to its close orders. -/
structure Replies where
  openOrders         : Listing
  cancelAll          : Answer
  positions          : Listing
  remainingPositions : Listing

/-- The answer confirms that this order is cancelled: it lists the order as cancelled, or reports success. -/
def Confirms (answer : Answer) (o : OpenOrder) : Prop :=
  ∃ v ∈ answer, v.get? "code" = some (.ofNat 200) ∨
    ∃ orders, v.asArray? = some orders ∧ ∃ order ∈ orders, order.get? "orderId" = some (.number (.posInt o.id)) ∧
      order.get? "status" = some (.string "CANCELED")

/-! ## Queries -/

/-- `response.json::<Vec<Value>>()` -/
def jsonArray (answer : Answer) : Except Error (List Value) :=
  match answer.bind Value.asArray? with
  | none         => .error .http
  | some entries => .ok entries

def readOpenOrder (toText : Value → String) (order : Value) : OrderResponse where
  orderId        := ((order.get? "orderId").map toText).getD ""
  status         := ((order.get? "status").map toText).getD ""
  price          := readF64 (order.get? "price")
  filledQuantity := readF64 (order.get? "executedQty")

def getOpenOrders (toText : Value → String) (answer : Answer) : Except Error (List OrderResponse) :=
  (jsonArray answer).map fun orders => orders.map (readOpenOrder toText)

/-- Entries without an amount are left out, and entries in which something cannot be read. Amounts are numerals here;
    `getPositionsOf` reads any text. -/
def readPosition (pos : Value) : Option Position := do
  let symbol ← (← pos.get? "symbol").asStr?
  let positionAmt ← parseF64 (← (← pos.get? "positionAmt").asStr?)
  if positionAmt = 0 then none
  else do
    let entryPrice ← parseF64 (← (← pos.get? "entryPrice").asStr?)
    let unrealizedProfit ← parseF64 (← (← pos.get? "unRealizedProfit").asStr?)
    return {
      symbol
      amount           := .finite |positionAmt|
      entryPrice       := .finite entryPrice
      unrealizedProfit := .finite unrealizedProfit
      side             := if 0 < positionAmt then "LONG" else "SHORT" }

def getPositions (answer : Answer) : Except Error (List Position) :=
  (jsonArray answer).map fun entries => entries.filterMap readPosition

def readCancelled (toText : Value → String) (order : Value) : Option OrderResponse := do
  let orderId ← order.get? "orderId"
  let status ← order.get? "status"
  return {
    orderId        := toText orderId
    status         := toText status
    price          := readF64 (order.get? "price")
    filledQuantity := readF64 (order.get? "executedQty") }

/-- The client's call: an answer that is not a list counts as no order cancelled. -/
def BinanceOrderClient.cancelAllOrders (client : BinanceOrderClient) (answer : Answer) :
    Except Error (List OrderResponse) :=
  match answer with
  | none          => .error .http
  | some response =>
    match response.asArray? with
    | some orders => .ok (orders.filterMap (readCancelled client.toText))
    | none        => .ok []

/-! ## The cleanup -/

/-- The manager is told of the orders it knows. -/
def updateEach : OrderManager → List OrderResponse → OrderManager × Except Error Unit
  | m, []                    => (m, .ok ())
  | m, response :: responses =>
    if (m.getOrderDetails response.orderId).isSome then
      match m.updateOrder response.orderId response with
      | .error e => (m, .error e)
      | .ok m'   => updateEach m' responses
    else updateEach m responses

/-- The market order that closes a position. -/
def closeRequest (position : Position) : OrderRequest :=
  marketOrder position.symbol (if position.side = "LONG" then .sell else .buy) position.amount

/-- Close orders for all positions, and which of them are accepted. -/
def Session.closeEach (client : BinanceOrderClient) : Session → List Position → Session × List Bool
  | s, []                    => (s, [])
  | s, position :: positions =>
    match s.sendOrder client (closeRequest position) with
    | (s', .ok response) =>
      let tracked := { s' with manager := s'.manager.trackOrder "binance" (closeRequest position) response }
      ((tracked.closeEach client positions).1, true :: (tracked.closeEach client positions).2)
    | (s', .error _)     => ((s'.closeEach client positions).1, false :: (s'.closeEach client positions).2)

/-- What is left at the exchange, where an accepted close order is filled. -/
def settle (symbol : String) : List PositionRisk → List Bool → List PositionRisk
  | [], _                 => []
  | e :: entries, filled =>
    if Held symbol e then
      (if filled.headD false then { e with positionAmt := .zero } else e) :: settle symbol entries filled.tail
    else e :: settle symbol entries filled

structure World where
  session  : Session
  exchange : Exchange

section

variable (client : BinanceOrderClient) (replies : Replies) (symbol : String)

def World.cancelAllOrders (w : World) : World × Except Error Unit :=
  match getOpenOrders client.toText (replies.openOrders.answer ((w.exchange.ordersOf symbol).map OpenOrder.json)) with
  | .error e    => (w, .error e)
  | .ok []      => (w, .ok ())
  | .ok (_ :: _) =>
    match client.cancelAllOrders replies.cancelAll with
    | .error e          => (w, .error e)
    | .ok cancelResults =>
      let updated := updateEach w.session.manager cancelResults
      ({ w with session := { w.session with manager := updated.1 } }, updated.2)

def World.positionsAnswer (w : World) (reply : Listing) : Answer :=
  reply.answer ((w.exchange.entriesOf symbol).map PositionRisk.json)

/-- How many positions remain is printed. -/
def World.closeAllPositions (w : World) : World × Except Error Unit :=
  match getPositions (w.positionsAnswer symbol replies.positions) with
  | .error e                     => (w, .error e)
  | .ok []                       => (w, .ok ())
  | .ok (position :: positions) =>
    let (s, filled) := w.session.closeEach client (position :: positions)
    let w' : World := ⟨s, { w.exchange with positions := settle symbol w.exchange.positions filled }⟩
    match getPositions (w'.positionsAnswer symbol replies.remainingPositions) with
    | .error e => (w', .error e)
    | .ok _    => (w', .ok ())

def World.cleanup (w : World) : World × Except Error Unit :=
  match w.cancelAllOrders client replies symbol with
  | (w', .error e) => (w', .error e)
  | (w', .ok _)    => w'.closeAllPositions client replies symbol

/-! ## What an `Ok` means -/

/-- One of the calls fails whose failure is passed on. -/
def Stops (w : World) : Prop :=
  replies.openOrders ≠ .list ∨ (w.exchange.ordersOf symbol ≠ [] ∧ replies.cancelAll = none) ∨
    replies.positions ≠ .list ∨
    (w.exchange.positions.filter (Held symbol ·) ≠ [] ∧ replies.remainingPositions ≠ .list)

/-- If it returns `Ok`, all orders are confirmed as cancelled and no position is left. -/
def CleansUp (w : World) : Prop :=
  (w.cleanup client replies symbol).2 = .ok () →
    (∀ o ∈ w.exchange.ordersOf symbol, Confirms replies.cancelAll o) ∧
      ∀ e ∈ (w.cleanup client replies symbol).1.exchange.positions, ¬ Held symbol e

end

/-! ## The queries answered by lists -/

theorem jsonArray_of_ne {reply : Listing} (h : reply ≠ .list) (entries : List Value) :
    jsonArray (reply.answer entries) = .error .http := by
  cases reply with
  | list => exact absurd rfl h
  | object fields => rfl
  | lost => rfl

/-- The position that is read from an entry. -/
def PositionRisk.position (e : PositionRisk) : Position where
  symbol           := e.symbol
  amount           := .finite |e.positionAmt.value|
  entryPrice       := .finite e.entryPrice.value
  unrealizedProfit := .finite e.unRealizedProfit.value
  side             := if 0 < e.positionAmt.value then "LONG" else "SHORT"

theorem readPosition_json (e : PositionRisk) :
    readPosition e.json = if e.positionAmt.value = 0 then none else some e.position := by
  have hsymbol : e.json.get? "symbol" = some (.string e.symbol) := rfl
  have hamount : e.json.get? "positionAmt" = some (.string e.positionAmt.text) := rfl
  have hprice : e.json.get? "entryPrice" = some (.string e.entryPrice.text) := rfl
  have hprofit : e.json.get? "unRealizedProfit" = some (.string e.unRealizedProfit.text) := rfl
  unfold readPosition
  simp only [hsymbol, hamount, hprice, hprofit, Value.asStr?, Option.bind_eq_bind, Option.bind_some,
    e.positionAmt.parses, e.entryPrice.parses, e.unRealizedProfit.parses]
  rfl

theorem getPositions_list (w : World) (symbol : String) :
    getPositions (w.positionsAnswer symbol .list) =
      .ok ((w.exchange.positions.filter (Held symbol ·)).map PositionRisk.position) := by
  have hread : ∀ entries : List PositionRisk, (entries.map PositionRisk.json).filterMap readPosition =
      (entries.filter fun e => e.positionAmt.value ≠ 0).map PositionRisk.position := by
    intro entries
    induction entries with
    | nil => rfl
    | cons e entries ih =>
        rw [List.map_cons, List.filterMap_cons, readPosition_json, ih]
        by_cases hzero : e.positionAmt.value = 0 <;> simp [hzero]
  show Except.ok (((w.exchange.entriesOf symbol).map PositionRisk.json).filterMap readPosition) = _
  rw [hread, Exchange.entriesOf, List.filter_filter]
  refine congrArg (fun held => Except.ok (held.map PositionRisk.position)) (List.filter_congr fun e _ => ?_)
  simp [Held, and_comm]

theorem getPositions_of_ne {reply : Listing} (h : reply ≠ .list) (w : World) (symbol : String) :
    getPositions (w.positionsAnswer symbol reply) = .error .http := by
  unfold getPositions World.positionsAnswer
  rw [jsonArray_of_ne h]
  rfl

/-- What an order adds to a position when it is filled. -/
def signedQuantity (order : OrderRequest) : F64 :=
  match order.side with
  | .buy  => order.quantity
  | .sell => order.quantity.neg

/-- A filled close order leaves nothing of a position with this signed amount. -/
theorem closeRequest_offsets {position : Position} {amount : ℚ} (hamount : position.amount = .finite |amount|)
    (hside : position.side = if 0 < amount then "LONG" else "SHORT") :
    F64.finite amount + signedQuantity (closeRequest position) = .finite 0 := by
  unfold closeRequest
  rw [hamount, hside]
  rcases lt_or_ge 0 amount with hlong | hshort
  · rw [if_pos hlong, if_pos rfl]
    show F64.finite (amount + -|amount|) = _
    rw [abs_of_pos hlong, add_neg_cancel]
  · have hne : ("SHORT" : String) ≠ "LONG" := by decide
    rw [if_neg (not_lt.mpr hshort), if_neg hne]
    show F64.finite (amount + |amount|) = _
    rw [abs_of_nonpos hshort, add_neg_cancel]

/-! ## Cancelling -/

theorem updateEach_ok (m : OrderManager) (responses : List OrderResponse) : (updateEach m responses).2 = .ok () := by
  induction responses generalizing m with
  | nil => rfl
  | cons response responses ih =>
      unfold updateEach
      by_cases hknown : (m.getOrderDetails response.orderId).isSome
      · obtain ⟨m', hm'⟩ := OrderManager.updateOrder_ok hknown response
        rw [if_pos hknown, hm']
        exact ih m'
      · rw [if_neg hknown]
        exact ih m

section

variable {client : BinanceOrderClient} {replies : Replies} {symbol : String}

/-- Whatever JSON answers it, the client's call succeeds. -/
theorem client_cancelAllOrders_ok_iff (answer : Answer) :
    (∃ cancelResults, client.cancelAllOrders answer = .ok cancelResults) ↔ answer ≠ none := by
  unfold BinanceOrderClient.cancelAllOrders
  cases answer with
  | none => simp
  | some response =>
      dsimp only
      cases response.asArray? <;> simp

/-- **Cancelling** fails with the list of orders and without an answer, and with nothing else. -/
theorem cancelAllOrders_ok_iff (w : World) :
    (w.cancelAllOrders client replies symbol).2 = .ok () ↔
      replies.openOrders = .list ∧ (w.exchange.ordersOf symbol = [] ∨ replies.cancelAll ≠ none) := by
  unfold World.cancelAllOrders
  by_cases hlist : replies.openOrders = .list
  · rw [hlist, and_iff_right rfl]
    cases w.exchange.ordersOf symbol with
    | nil => exact ⟨fun _ => .inl rfl, fun _ => rfl⟩
    | cons o orders =>
        rw [or_iff_right (List.cons_ne_nil o orders), ← client_cancelAllOrders_ok_iff]
        dsimp only [List.map_cons, Listing.answer, getOpenOrders, jsonArray, Option.bind_some, Value.asArray?,
          Except.map]
        cases client.cancelAllOrders replies.cancelAll with
        | error e => exact ⟨nofun, fun ⟨_, h⟩ => by cases h⟩
        | ok cancelResults => exact ⟨fun _ => ⟨cancelResults, rfl⟩, fun _ => updateEach_ok _ _⟩
  · rw [getOpenOrders, jsonArray_of_ne hlist]
    exact ⟨nofun, fun h => absurd h.1 hlist⟩

/-- It touches the manager only. -/
theorem cancelAllOrders_frame (w : World) :
    (w.cancelAllOrders client replies symbol).1.exchange = w.exchange ∧
      (w.cancelAllOrders client replies symbol).1.session.sent = w.session.sent := by
  unfold World.cancelAllOrders
  split
  · exact ⟨rfl, rfl⟩
  · exact ⟨rfl, rfl⟩
  · split
    · exact ⟨rfl, rfl⟩
    · exact ⟨rfl, rfl⟩

/-! ## Closing -/

def isAccepted : Except Error OrderResponse → Bool
  | .ok _    => true
  | .error _ => false

/-- Every position has its close order, whatever became of those before. -/
theorem closeEach_filled (s : Session) (positions : List Position) :
    (s.closeEach client positions).2 =
      (results client s.sent (positions.map closeRequest)).map isAccepted := by
  induction positions generalizing s with
  | nil => rfl
  | cons position positions ih =>
      unfold Session.closeEach Session.sendOrder
      rw [List.map_cons, results, List.map_cons]
      cases hanswer : client.sendOrder s.sent (closeRequest position) with
      | error e =>
          dsimp only
          rw [ih]
          rfl
      | ok response =>
          dsimp only
          rw [ih]
          rfl

theorem length_results (n : Nat) (orders : List OrderRequest) : (results client n orders).length = orders.length := by
  induction orders generalizing n with
  | nil => rfl
  | cons order orders ih => rw [results, List.length_cons, List.length_cons, ih]

theorem isAccepted_iff {result : Except Error OrderResponse} :
    isAccepted result = true ↔ ∃ response, result = .ok response := by
  cases result with
  | error e => exact ⟨nofun, fun ⟨_, h⟩ => by cases h⟩
  | ok response => exact ⟨fun _ => ⟨response, rfl⟩, fun _ => rfl⟩

/-- **Nothing is held** after the close orders exactly when all of them are filled. -/
theorem settle_flat_iff (symbol : String) (entries : List PositionRisk) {filled : List Bool}
    (hlength : filled.length = (entries.filter (Held symbol ·)).length) :
    (∀ e ∈ settle symbol entries filled, ¬ Held symbol e) ↔ ∀ f ∈ filled, f = true := by
  induction entries generalizing filled with
  | nil =>
      obtain rfl := List.length_eq_zero_iff.mp hlength
      simp [settle]
  | cons e entries ih =>
      unfold settle
      by_cases hheld : Held symbol e
      · rw [List.filter_cons_of_pos (by simpa using hheld), List.length_cons] at hlength
        cases filled with
        | nil => cases hlength
        | cons f filled =>
            -- the outcome of this entry is the first
            have hflat : ¬ Held symbol { e with positionAmt := Decimal.zero } := fun h => h.2 rfl
            rw [if_pos hheld, List.forall_mem_cons, List.tail_cons, List.headD_cons, List.forall_mem_cons,
              ih (Nat.succ.inj hlength)]
            cases f with
            | true => exact and_congr_left fun _ => ⟨fun _ => rfl, fun _ => hflat⟩
            | false => exact and_congr_left fun _ => ⟨fun h => absurd hheld h, nofun⟩
      · rw [List.filter_cons_of_neg (by simpa using hheld)] at hlength
        rw [if_neg hheld, List.forall_mem_cons, ih hlength]
        exact and_iff_right hheld

/-- The close orders of a cleanup. -/
def closeRequests (symbol : String) (w : World) : List OrderRequest :=
  ((w.exchange.positions.filter (Held symbol ·)).map PositionRisk.position).map closeRequest

theorem closeAllPositions_ok_iff (w : World) :
    (w.closeAllPositions client replies symbol).2 = .ok () ↔
      replies.positions = .list ∧
        (w.exchange.positions.filter (Held symbol ·) = [] ∨ replies.remainingPositions = .list) := by
  unfold World.closeAllPositions
  by_cases hlist : replies.positions = .list
  · rw [hlist, and_iff_right rfl, getPositions_list]
    cases w.exchange.positions.filter (Held symbol ·) with
    | nil => exact ⟨fun _ => .inl rfl, fun _ => rfl⟩
    | cons e held =>
        rw [or_iff_right (List.cons_ne_nil e held), List.map_cons]
        dsimp only
        by_cases hremaining : replies.remainingPositions = .list
        · rw [hremaining, getPositions_list]
          exact ⟨fun _ => rfl, fun _ => rfl⟩
        · rw [getPositions_of_ne hremaining]
          exact ⟨nofun, fun h => absurd h hremaining⟩
  · rw [getPositions_of_ne hlist]
    exact ⟨nofun, fun h => absurd h.1 hlist⟩

/-- **Closing** leaves nothing exactly when every close order is accepted. -/
theorem closeAllPositions_flat_iff (w : World) (hlist : replies.positions = .list) :
    (∀ e ∈ (w.closeAllPositions client replies symbol).1.exchange.positions, ¬ Held symbol e) ↔
      AcceptsAll client w.session.sent (closeRequests symbol w) := by
  -- the positions after it, with or without close orders
  have hafter : (w.closeAllPositions client replies symbol).1.exchange.positions =
      settle symbol w.exchange.positions
        ((results client w.session.sent (closeRequests symbol w)).map isAccepted) ∨
      (w.exchange.positions.filter (Held symbol ·) = [] ∧
        (w.closeAllPositions client replies symbol).1.exchange.positions = w.exchange.positions) := by
    unfold World.closeAllPositions closeRequests
    rw [hlist, getPositions_list]
    cases w.exchange.positions.filter (Held symbol ·) with
    | nil => exact .inr ⟨rfl, rfl⟩
    | cons e held =>
        left
        rw [List.map_cons]
        dsimp only
        rw [closeEach_filled]
        split
        · rfl
        · rfl
  rcases hafter with hafter | ⟨hnone, hafter⟩
  · rw [hafter, settle_flat_iff]
    · rw [List.forall_mem_map]
      exact forall₂_congr fun result _ => isAccepted_iff
    · rw [List.length_map, length_results, closeRequests, List.length_map, List.length_map]
  · rw [hafter, closeRequests, hnone]
    refine ⟨fun _ => acceptsAll_nil _, fun _ e he hheld => ?_⟩
    have hmem : e ∈ w.exchange.positions.filter (Held symbol ·) := List.mem_filter.mpr ⟨he, by simpa using hheld⟩
    rw [hnone] at hmem
    cases hmem

/-! ## Both -/

theorem cleanup_of_cancelled {w : World} (h : (w.cancelAllOrders client replies symbol).2 = .ok ()) :
    w.cleanup client replies symbol =
      (w.cancelAllOrders client replies symbol).1.closeAllPositions client replies symbol := by
  unfold World.cleanup
  generalize w.cancelAllOrders client replies symbol = cancelled at h ⊢
  obtain ⟨w', outcome⟩ := cancelled
  cases h
  rfl

/-- The cleanup returns `Ok` exactly when none of its calls fails that could stop it. -/
theorem cleanup_ok_iff (w : World) : (w.cleanup client replies symbol).2 = .ok () ↔ ¬ Stops replies symbol w := by
  have hcalls : (w.cleanup client replies symbol).2 = .ok () ↔
      (w.cancelAllOrders client replies symbol).2 = .ok () ∧
        ((w.cancelAllOrders client replies symbol).1.closeAllPositions client replies symbol).2 = .ok () := by
    constructor
    · intro h
      have hcancelled : (w.cancelAllOrders client replies symbol).2 = .ok () := by
        unfold World.cleanup at h
        generalize w.cancelAllOrders client replies symbol = cancelled at h
        obtain ⟨w', outcome⟩ := cancelled
        cases outcome with
        | error e => cases h
        | ok _ => rfl
      exact ⟨hcancelled, by rwa [← cleanup_of_cancelled hcancelled]⟩
    · rintro ⟨hcancelled, hclosed⟩
      rwa [cleanup_of_cancelled hcancelled]
  rw [hcalls, cancelAllOrders_ok_iff, closeAllPositions_ok_iff, (cancelAllOrders_frame w).1]
  unfold Stops
  tauto

/-- **A cleanup that returns `Ok` has cleaned up** exactly when a failed call stops it, or every open order is
    confirmed as cancelled and every close order accepted. -/
theorem cleanup_cleans_iff (client : BinanceOrderClient) (replies : Replies) (symbol : String) (w : World) :
    CleansUp client replies symbol w ↔
      Stops replies symbol w ∨
        ((∀ o ∈ w.exchange.ordersOf symbol, Confirms replies.cancelAll o) ∧
          AcceptsAll client w.session.sent (closeRequests symbol w)) := by
  unfold CleansUp
  rw [cleanup_ok_iff, ← or_iff_not_imp_left]
  by_cases hstops : Stops replies symbol w
  · rw [or_iff_left_of_imp fun _ => hstops, or_iff_left_of_imp fun _ => hstops]
  · have hcancelled : (w.cancelAllOrders client replies symbol).2 = .ok () := by
      rw [cancelAllOrders_ok_iff]
      unfold Stops at hstops
      tauto
    have hlist : replies.positions = .list := by
      unfold Stops at hstops
      tauto
    have hrequests : closeRequests symbol (w.cancelAllOrders client replies symbol).1 = closeRequests symbol w := by
      unfold closeRequests
      rw [(cancelAllOrders_frame w).1]
    rw [or_iff_right hstops, or_iff_right hstops, cleanup_of_cancelled hcancelled, closeAllPositions_flat_iff _ hlist,
      (cancelAllOrders_frame w).2, hrequests]

/-- An exchange that rejects every order. -/
def rejectsOrders : BinanceOrderClient := ⟨fun _ => "", fun _ _ => some (.object [("code", .ofNat 0)])⟩

/-- One open order and no position; the cancellation is answered by an error object. -/
theorem not_cleanup_cleans : ¬ ∀ (client : BinanceOrderClient) (replies : Replies) (symbol : String) (w : World),
    CleansUp client replies symbol w := by
  intro h
  have hcleans := h rejectsOrders
    ⟨.list, some (.object [("code", .number (.negInt (-1003))), ("msg", .string "Too many requests")]), .list, .list⟩
    "BTCUSDT" ⟨.new, ⟨[⟨"BTCUSDT", 7⟩], []⟩⟩ rfl
  obtain ⟨v, hv, hconfirms⟩ := hcleans.1 ⟨"BTCUSDT", 7⟩ (List.mem_singleton.mpr rfl)
  obtain rfl := Option.some.inj hv
  rcases hconfirms with hcode | ⟨orders, horders, -⟩
  · simp [Value.get?, Value.ofNat] at hcode
  · cases horders

end

end Maker
end TradingPlatform
