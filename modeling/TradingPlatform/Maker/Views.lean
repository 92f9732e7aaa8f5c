import TradingPlatform.Json.Text
import TradingPlatform.Maker.Cleanup

/-!
# `Maker.Views` — the responses that are built from one order object

Four functions of the client and the checker keep the JSON text of the id and of the status; `query_order_status`
takes the strings out of it and maps the status. Its status is therefore never the one the others report, and its id
only when the exchange sends a number (`views_disagree`).
-/

namespace TradingPlatform
namespace Maker

open Rust Json

/-! ## The queries for one order -/

/-- An HTTP response: its status, its body and what the body parses to. -/
structure StatusReply where
  success : Bool
  status  : String
  text    : String
  json    : Option Value

/-- The mapping of Binance's status to that of an `OrderResponse`. -/
def mapStatus (status : String) : String :=
  match status with
  | "NEW" | "PARTIALLY_FILLED"          => "OPEN"
  | "FILLED"                            => "FILLED"
  | "CANCELED" | "REJECTED" | "EXPIRED" => "CANCELED"
  | _                                   => "UNKNOWN"

/-- A string as it is, a number as its text. -/
def readId (toText : Value → String) : Value → Option String
  | .string s => some s
  | .number n => some (toText (.number n))
  | _         => none

def readFilled : Value → Option ℚ
  | .string s => parseF64 s
  | .number n => some n.value
  | _         => none

def filledQuantityOf (json : Value) : ℚ :=
  ((((json.get? "executedQty").or (json.get? "executed_qty")).or (json.get? "filledQty")).bind readFilled).getD 0

/-- The response to the query for one order. -/
def queryOrderStatus (toText : Value → String) (exchange : String) (reply : Option StatusReply) :
    Except Error OrderResponse :=
  if exchange ≠ "binance" then .error (.invalidInput ("Unsupported exchange: " ++ exchange))
  else
    match reply with
    | none       => .error .http
    | some reply =>
      if !reply.success then
        .error (.invalidInput ("Error from Binance API: Status " ++ reply.status ++ ", Body: " ++ reply.text))
      else
        match reply.json with
        | none      => .error .http
        | some json =>
          match json.get? "code" with
          | some code =>
            let msg := ((json.get? "msg").bind Value.asStr?).getD "Unknown error"
            .error (.invalidInput ("Binance API error: code=" ++ toText code ++ ", msg=" ++ msg))
          | none      =>
            match (json.get? "orderId").bind (readId toText) with
            | none         => .error (.invalidInput "Order ID not found in response")
            | some orderId =>
              match ((json.get? "status").or (json.get? "orderStatus")).bind Value.asStr? with
              | none        => .error (.invalidInput ("Order status not found in response: " ++ reply.text))
              | some status => .ok {
                  orderId
                  status         := mapStatus status
                  filledQuantity := some (.finite (filledQuantityOf json))
                  price          := none }

/-- The answer to the cancellation of one order. -/
def BinanceOrderClient.cancelOrder (client : BinanceOrderClient) (answer : Answer) : Except Error OrderResponse :=
  match answer with
  | none          => .error .http
  | some response =>
    match response.get? "orderId", response.get? "status" with
    | some orderId, some status => .ok {
        orderId        := client.toText orderId
        status         := client.toText status
        price          := readF64 (response.get? "price")
        filledQuantity := readF64 (response.get? "executedQty") }
    | _, _ =>
      match response.get? "msg" with
      | some msg => .error (.invalidInput ("Binance error: " ++ client.toText msg))
      | none     => .error (.invalidInput "Invalid response from Binance cancel order")

/-! ## One object, five views -/

/-- An order object with this id and this status. -/
structure IsOrder (order orderId : Value) (status : String) : Prop where
  hasId     : order.get? "orderId" = some orderId
  form      : (∃ s, orderId = .string s) ∨ ∃ n, orderId = .number n
  hasStatus : order.get? "status" = some (.string status)

/-- A successful response with the object. -/
def found (text : String) (order : Value) : StatusReply :=
  { success := true, status := "200 OK", text, json := some order }

/-- The responses that the other functions build from the object. -/
inductive BuiltFrom (client : BinanceOrderClient) (order : Value) : OrderResponse → Prop
  | sendOrder {n : Nat} {request : OrderRequest} {view : OrderResponse} :
      client.answer n request = some order → client.sendOrder n request = .ok view → BuiltFrom client order view
  | cancelOrder {view : OrderResponse} :
      client.cancelOrder (some order) = .ok view → BuiltFrom client order view
  | cancelAllOrders {view : OrderResponse} :
      client.cancelAllOrders (some (.array [order])) = .ok [view] → BuiltFrom client order view
  | getOpenOrders {view : OrderResponse} :
      getOpenOrders client.toText (some (.array [order])) = .ok [view] → BuiltFrom client order view

/-- All views have the id and the status of the query for the order. -/
def ViewsAgree (client : BinanceOrderClient) (text : String) (order : Value) : Prop :=
  ∃ query, queryOrderStatus client.toText "binance" (some (found text order)) = .ok query ∧
    ∀ view, BuiltFrom client order view → view.orderId = query.orderId ∧ view.status = query.status

section

variable {client : BinanceOrderClient} {order orderId : Value} {status text : String}

/-- The other functions write both as text. -/
theorem BuiltFrom.texts {view : OrderResponse} (h : BuiltFrom client order view)
    (horder : IsOrder order orderId status) :
    view.orderId = client.toText orderId ∧ view.status = client.toText (.string status) := by
  cases h with
  | @sendOrder n request _ hanswer hview =>
      unfold BinanceOrderClient.sendOrder at hview
      rw [hanswer] at hview
      dsimp only at hview
      rw [horder.hasId, horder.hasStatus] at hview
      split at hview
      · cases hview
      · cases hview
        exact ⟨rfl, rfl⟩
  | cancelOrder hview =>
      unfold BinanceOrderClient.cancelOrder at hview
      dsimp only at hview
      rw [horder.hasId, horder.hasStatus] at hview
      cases hview
      exact ⟨rfl, rfl⟩
  | cancelAllOrders hview =>
      have hread : client.cancelAllOrders (some (.array [order]))
          = .ok ([order].filterMap (readCancelled client.toText)) := rfl
      have hcancelled : readCancelled client.toText order = some {
          orderId        := client.toText orderId
          status         := client.toText (.string status)
          price          := readF64 (order.get? "price")
          filledQuantity := readF64 (order.get? "executedQty") } := by
        unfold readCancelled
        rw [horder.hasId, horder.hasStatus]
        rfl
      rw [hread, List.filterMap_cons_some hcancelled] at hview
      cases hview
      exact ⟨rfl, rfl⟩
  | getOpenOrders hview =>
      have hread : Maker.getOpenOrders client.toText (some (.array [order]))
          = .ok [readOpenOrder client.toText order] := rfl
      rw [hread] at hview
      cases hview
      unfold readOpenOrder
      rw [horder.hasId, horder.hasStatus]
      exact ⟨rfl, rfl⟩

/-- The query takes them out of it. -/
theorem query_texts {query : OrderResponse}
    (h : queryOrderStatus client.toText "binance" (some (found text order)) = .ok query)
    (horder : IsOrder order orderId status) :
    readId client.toText orderId = some query.orderId ∧ query.status = mapStatus status := by
  have hid : ∃ id, readId client.toText orderId = some id := by
    rcases horder.form with ⟨s, rfl⟩ | ⟨n, rfl⟩
    · exact ⟨_, rfl⟩
    · exact ⟨_, rfl⟩
  obtain ⟨id, hid⟩ := hid
  have hstatus : ((order.get? "status").or (order.get? "orderStatus")).bind Value.asStr? = some status := by
    rw [horder.hasStatus]
    rfl
  unfold queryOrderStatus found at h
  dsimp only at h
  rw [if_neg (not_not_intro rfl), if_neg (by decide), hstatus, horder.hasId, Option.bind_some, hid] at h
  split at h
  · cases h
  · cases h
    exact ⟨hid, rfl⟩

theorem mapStatus_mem (status : String) : mapStatus status ∈ ["OPEN", "FILLED", "CANCELED", "UNKNOWN"] := by
  unfold mapStatus
  split <;> decide

/-- No status of the query is the text of a string. -/
theorem mapStatus_ne_quoted (status status' : String) : quoted status' ≠ mapStatus status := by
  apply quoted_ne
  have hall : ∀ s ∈ ["OPEN", "FILLED", "CANCELED", "UNKNOWN"], s.toList.head? ≠ some '"' := by decide
  exact hall _ (mapStatus_mem status)

/-- The only tracked order is found under its own id. -/
theorem updateOrder_tracked_iff (request : OrderRequest) (view query : OrderResponse) :
    (∃ m, (OrderManager.new.trackOrder "binance" request view).updateOrder query.orderId query = .ok m) ↔
      view.orderId = query.orderId := by
  unfold OrderManager.updateOrder OrderManager.trackOrder OrderManager.new
  dsimp only [List.nil_append, OrderManager.updateFirst, trackedOrder]
  by_cases hid : view.orderId = query.orderId
  · rw [if_pos hid]
    exact ⟨fun _ => hid, fun _ => ⟨_, rfl⟩⟩
  · rw [if_neg hid]
    exact ⟨nofun, fun h => absurd h hid⟩

end

/-- **The views never agree.** Their status is never that of the query, and their id is only when it is a number; so
    an order that is tracked under a string is not found with the id of the query. -/
theorem views_disagree (client : BinanceOrderClient) (htext : ∀ s, client.toText (.string s) = quoted s)
    {order orderId : Value} {status : String} (horder : IsOrder order orderId status) (text : String) :
    ¬ ViewsAgree client text order ∧
    ∀ query, queryOrderStatus client.toText "binance" (some (found text order)) = .ok query →
      ∀ view, BuiltFrom client order view →
        view.status ≠ query.status ∧
        (view.orderId = query.orderId ↔ ∃ n, orderId = .number n) ∧
        ∀ request,
          (∃ m, (OrderManager.new.trackOrder "binance" request view).updateOrder query.orderId query = .ok m) ↔
            ∃ n, orderId = .number n := by
  have hviews : ∀ query, queryOrderStatus client.toText "binance" (some (found text order)) = .ok query →
      ∀ view, BuiltFrom client order view →
        view.status ≠ query.status ∧ (view.orderId = query.orderId ↔ ∃ n, orderId = .number n) := by
    intro query hquery view hview
    obtain ⟨hid, hstatus⟩ := query_texts hquery horder
    obtain ⟨hid', hstatus'⟩ := hview.texts horder
    refine ⟨?_, ?_⟩
    · rw [hstatus, hstatus', htext]
      exact mapStatus_ne_quoted status status
    · rw [hid']
      rcases horder.form with ⟨s, rfl⟩ | ⟨n, rfl⟩
      · -- a string is taken out of its quotes by the query only
        obtain rfl : s = query.orderId := Option.some.inj hid
        rw [htext]
        exact ⟨fun h => absurd h (quoted_ne_self _), fun ⟨n, hn⟩ => by cases hn⟩
      · exact ⟨fun _ => ⟨n, rfl⟩, fun _ => Option.some.inj hid⟩
  refine ⟨?_, ?_⟩
  · rintro ⟨query, hquery, hagree⟩
    have hview : BuiltFrom client order (readOpenOrder client.toText order) := .getOpenOrders rfl
    exact (hviews query hquery _ hview).1 (hagree _ hview).2
  · intro query hquery view hview
    obtain ⟨hstatus, hid⟩ := hviews query hquery view hview
    exact ⟨hstatus, hid, fun request => (updateOrder_tracked_iff request view query).trans hid⟩

/-- Whole numbers and strings as JSON text. -/
def plainText : Value → String
  | .string s           => quoted s
  | .number (.posInt n) => Nat.repr n.toNat
  | .number (.negInt n) => Int.repr n.toInt
  | _                   => ""

/-- An exchange that answers everything with one order. -/
def answers (order : Value) : BinanceOrderClient := ⟨plainText, fun _ _ => some order⟩

/-- A new order as the exchange reports it. -/
def newOrder (orderId : Value) : Value := .object [("orderId", orderId), ("status", .string "NEW")]

theorem views_disagree_number : ¬ ViewsAgree (answers (newOrder (.ofNat 7))) "" (newOrder (.ofNat 7)) :=
  (views_disagree (answers (newOrder (.ofNat 7))) (fun _ => rfl) ⟨rfl, Or.inr ⟨_, rfl⟩, rfl⟩ "").1

/-- One open order with a string as its id, seen by two queries. -/
theorem views_of_string :
    getOpenOrders plainText (some (.array [newOrder (.string "a7")])) =
      .ok [⟨"\"a7\"", "\"NEW\"", none, none⟩] ∧
    queryOrderStatus plainText "binance" (some (found "" (newOrder (.string "a7")))) =
      .ok ⟨"a7", "OPEN", none, some 0⟩ ∧
    ¬ ViewsAgree (answers (newOrder (.string "a7"))) "" (newOrder (.string "a7")) := by
  have hopen : getOpenOrders plainText (some (.array [newOrder (.string "a7")])) =
      .ok [⟨"\"a7\"", "\"NEW\"", none, none⟩] := rfl
  have hquery : queryOrderStatus plainText "binance" (some (found "" (newOrder (.string "a7")))) =
      .ok ⟨"a7", "OPEN", none, some 0⟩ := rfl
  refine ⟨hopen, hquery, ?_⟩
  rintro ⟨query, hok, hagree⟩
  obtain rfl : _ = query := Except.ok.inj (hquery.symm.trans hok)
  exact absurd (hagree _ (.getOpenOrders hopen)).1 (by decide)

end Maker
end TradingPlatform
