import TradingPlatform.Maker.Orders
import Mathlib.Data.List.Pairwise

/-!
# `Maker.Status` — the status check of the tracked orders

The ids to ask for are listed by exchange and symbol, and the answers are written to the first entry with the id. An
order whose id an earlier entry of another exchange has too is not updated, and that entry is (`status_check_iff`).
-/

namespace TradingPlatform
namespace Maker

open OrderManager

/-! ## The check -/

def OrderManager.getExchangeSymbolOrderIds (m : OrderManager) (exchangeId symbol : String) : List String :=
  (m.orders.filter fun order => order.exchangeId = exchangeId ∧ order.symbol = symbol).map TrackedOrder.orderId

/-- The loop of `check_order_status`: an error ends it. -/
def checkEach (query : String → Except Error OrderResponse) :
    OrderManager → List String → OrderManager × Except Error Unit
  | m, []                   => (m, .ok ())
  | m, orderId :: orderIds =>
    match query orderId with
    | .error e   => (m, .error e)
    | .ok status =>
      match m.updateOrder orderId status with
      | .error e => (m, .error e)
      | .ok m'   => checkEach query m' orderIds

/-- With the answers of `query_order_status` to an exchange, a symbol and an id. -/
def OrderManager.checkOrderStatus (m : OrderManager) (query : String → String → String → Except Error OrderResponse)
    (exchange symbol : String) : OrderManager × Except Error Unit :=
  checkEach (query exchange symbol) m (m.getExchangeSymbolOrderIds exchange symbol)

/-! ## What it should do -/

/-- An order the check is about. -/
def Checked (exchange symbol : String) (order : TrackedOrder) : Prop :=
  order.exchangeId = exchange ∧ order.symbol = symbol

instance (exchange symbol : String) (order : TrackedOrder) : Decidable (Checked exchange symbol order) :=
  inferInstanceAs (Decidable (_ ∧ _))

/-- No two orders of one exchange have the same id. -/
def UniqueIds (m : OrderManager) : Prop :=
  m.orders.Pairwise fun o o' => o.exchangeId = o'.exchangeId → o.orderId ≠ o'.orderId

def answered (answer : String → OrderResponse) (order : TrackedOrder) : TrackedOrder :=
  { order with latestResponse := answer order.orderId }

/-- The check succeeds, and exactly the orders it is about have their own answers. -/
def ChecksOwn (m : OrderManager) (query : String → String → String → Except Error OrderResponse)
    (answer : String → OrderResponse) (exchange symbol : String) : Prop :=
  m.checkOrderStatus query exchange symbol =
    (⟨m.orders.map fun order => if Checked exchange symbol order then answered answer order else order⟩, .ok ())

/-- When the first entry with the id of such an order is of another exchange, both have the answer already. -/
def Unshadowed (m : OrderManager) (answer : String → OrderResponse) (exchange symbol : String) : Prop :=
  ∀ order ∈ m.orders, Checked exchange symbol order →
    ∀ first, m.getOrderDetails order.orderId = some first → first.exchangeId ≠ order.exchangeId →
      first.latestResponse = answer order.orderId ∧ order.latestResponse = answer order.orderId

/-! ## Writing to the first entry -/

section

variable {orders : List TrackedOrder} {order : TrackedOrder}

/-- The entry that `update_order` writes to when it is given the id of this one is of the same exchange. -/
def Leads (orders : List TrackedOrder) (order : TrackedOrder) : Prop :=
  (orders.find? fun o => o.orderId = order.orderId).map TrackedOrder.exchangeId = some order.exchangeId

instance (orders : List TrackedOrder) (order : TrackedOrder) : Decidable (Leads orders order) :=
  inferInstanceAs (Decidable (_ = _))

/-- An entry with one of the ids, after the answers were written. -/
def written (answer : String → OrderResponse) (ids : List String) (orders : List TrackedOrder)
    (order : TrackedOrder) : TrackedOrder :=
  if order.orderId ∈ ids ∧ Leads orders order then answered answer order else order

section Keys

variable (answer : String → OrderResponse) (ids : List String) (orders : List TrackedOrder) (order : TrackedOrder)

@[simp] theorem written_orderId : (written answer ids orders order).orderId = order.orderId := by
  unfold written
  split <;> rfl

@[simp] theorem written_exchangeId : (written answer ids orders order).exchangeId = order.exchangeId := by
  unfold written
  split <;> rfl

@[simp] theorem answered_written : answered answer (written answer ids orders order) = answered answer order := by
  unfold written
  split <;> rfl

theorem written_of_leads (h : Leads orders order) :
    written answer ids orders order = if order.orderId ∈ ids then answered answer order else order :=
  if_congr (and_iff_left h) rfl rfl

theorem written_of_not_leads (h : ¬ Leads orders order) : written answer ids orders order = order :=
  if_neg fun hboth => h hboth.2

theorem written_of_not_mem (h : order.orderId ∉ ids) : written answer ids orders order = order :=
  if_neg fun hmem => h hmem.1

end Keys

/-- An entry with the same id in front leads those of its exchange. -/
theorem leads_cons_of_eq {first : TrackedOrder} (h : first.orderId = order.orderId) :
    Leads (first :: orders) order ↔ first.exchangeId = order.exchangeId := by
  unfold Leads
  rw [List.find?_cons_of_pos (by simpa using h), Option.map_some, Option.some.injEq]

theorem leads_cons_of_ne {first : TrackedOrder} (h : first.orderId ≠ order.orderId) :
    Leads (first :: orders) order ↔ Leads orders order := by
  unfold Leads
  rw [List.find?_cons_of_neg (by simpa using h)]

/-- **With unique ids the first entry is the one that leads.** -/
theorem updateFirst_eq (h : UniqueIds ⟨orders⟩) (answer : String → OrderResponse) {id : String}
    (hmem : ∃ o ∈ orders, o.orderId = id) :
    updateFirst id (answer id) orders = some (orders.map (written answer [id] orders)) := by
  induction orders with
  | nil =>
      obtain ⟨o, ho, _⟩ := hmem
      cases ho
  | cons o os ih =>
      obtain ⟨hfirst, hrest⟩ := List.pairwise_cons.mp h
      unfold updateFirst
      by_cases hid : o.orderId = id
      · -- this one is first, and no other entry of its exchange has the id
        have hhead : written answer [id] (o :: os) o = { o with latestResponse := answer id } := by
          rw [written, if_pos ⟨List.mem_singleton.mpr hid, (leads_cons_of_eq rfl).mpr rfl⟩, answered, hid]
        have htail : os.map (written answer [id] (o :: os)) = os := by
          refine (List.map_congr_left fun o' ho' => ?_).trans (List.map_id os)
          refine if_neg fun hboth => ?_
          have hsame : o.orderId = o'.orderId := hid.trans (List.mem_singleton.mp hboth.1).symm
          exact hfirst o' ho' ((leads_cons_of_eq hsame).mp hboth.2) hsame
        rw [if_pos hid, List.map_cons, hhead, htail]
      · have hmem' : ∃ o' ∈ os, o'.orderId = id := by
          obtain ⟨o', ho', hid'⟩ := hmem
          rcases List.mem_cons.mp ho' with rfl | ho'
          · exact absurd hid' hid
          · exact ⟨o', ho', hid'⟩
        have hhead : written answer [id] (o :: os) o = o := written_of_not_mem _ _ _ _ (by simpa using hid)
        have htail : os.map (written answer [id] (o :: os)) = os.map (written answer [id] os) := by
          apply List.map_congr_left
          intro o' _
          refine if_congr (and_congr_right fun hid' => ?_) rfl rfl
          exact leads_cons_of_ne fun hsame => hid (hsame.trans (List.mem_singleton.mp hid'))
        rw [if_neg hid, ih hrest hmem', Option.map_some, List.map_cons, hhead, htail]

/-- Writing responses does not change who leads. -/
theorem leads_map (answer : String → OrderResponse) (ids : List String) (orders' : List TrackedOrder) :
    Leads (orders.map (written answer ids orders')) (written answer ids orders' order) ↔ Leads orders order := by
  unfold Leads
  rw [List.find?_map, Option.map_map, written_orderId, written_exchangeId]
  have hkeys : ((fun o : TrackedOrder => decide (o.orderId = order.orderId)) ∘ written answer ids orders')
      = fun o => decide (o.orderId = order.orderId) := by
    funext o
    rw [Function.comp_apply, written_orderId]
  have hexchanges : TrackedOrder.exchangeId ∘ written answer ids orders' = TrackedOrder.exchangeId := by
    funext o
    exact written_exchangeId _ _ _ _
  rw [hkeys, hexchanges]

theorem UniqueIds.written (h : UniqueIds ⟨orders⟩) (answer : String → OrderResponse) (ids : List String) :
    UniqueIds ⟨orders.map (written answer ids orders)⟩ := by
  unfold UniqueIds
  rw [List.pairwise_map]
  simp only [written_orderId, written_exchangeId]
  exact h

/-- One answer after the other is all answers. -/
theorem written_written (answer : String → OrderResponse) (id : String) (ids : List String) :
    written answer ids (orders.map (written answer [id] orders)) (written answer [id] orders order)
      = written answer (id :: ids) orders order := by
  by_cases hleads : Leads orders order
  · rw [written_of_leads _ _ _ _ ((leads_map answer [id] orders).mpr hleads), answered_written, written_orderId,
      written_of_leads _ _ _ _ hleads, written_of_leads _ _ _ _ hleads]
    by_cases hid : order.orderId = id
    · have hone : order.orderId ∈ [id] := by simp [hid]
      have hall : order.orderId ∈ id :: ids := by simp [hid]
      rw [if_pos hone, if_pos hall, ite_self]
    · have hnone : order.orderId ∉ [id] := by simpa using hid
      rw [if_neg hnone]
      exact if_congr (by simp [hid]) rfl rfl
  · have hafter := mt (leads_map answer [id] orders).mp hleads
    rw [written_of_not_leads _ _ _ _ hafter, written_of_not_leads _ _ _ _ hleads, written_of_not_leads _ _ _ _ hleads]

/-- **What the loop leaves behind**, with an answer to every id: the answers are in the entries that lead. -/
theorem checkEach_eq (h : UniqueIds ⟨orders⟩) {query : String → Except Error OrderResponse}
    {answer : String → OrderResponse} {ids : List String} (hquery : ∀ id ∈ ids, query id = .ok (answer id))
    (hmem : ∀ id ∈ ids, ∃ o ∈ orders, o.orderId = id) :
    checkEach query ⟨orders⟩ ids = (⟨orders.map (written answer ids orders)⟩, .ok ()) := by
  induction ids generalizing orders with
  | nil =>
      have hid : orders.map (written answer [] orders) = orders :=
        (List.map_congr_left fun o _ => written_of_not_mem _ _ _ _ List.not_mem_nil).trans (List.map_id orders)
      rw [hid]
      rfl
  | cons id ids ih =>
      have hupdate : OrderManager.updateOrder ⟨orders⟩ id (answer id)
          = .ok ⟨orders.map (written answer [id] orders)⟩ := by
        unfold OrderManager.updateOrder
        rw [updateFirst_eq h answer (hmem id List.mem_cons_self)]
      have hmem' : ∀ id' ∈ ids, ∃ o ∈ orders.map (written answer [id] orders), o.orderId = id' := by
        intro id' hid'
        obtain ⟨o, ho, hoid⟩ := hmem id' (List.mem_cons_of_mem _ hid')
        exact ⟨_, List.mem_map_of_mem ho, (written_orderId _ _ _ _).trans hoid⟩
      rw [checkEach, hquery id List.mem_cons_self]
      dsimp only
      rw [hupdate]
      dsimp only
      rw [ih (h.written answer [id]) (fun id' hid' => hquery id' (List.mem_cons_of_mem _ hid')) hmem', List.map_map]
      exact congrArg (fun orders => ((⟨orders⟩ : OrderManager), Except.ok ()))
        (List.map_congr_left fun o _ => written_written answer id ids)

end

/-! ## The order itself -/

/-- Two orders of one exchange with one id are one order. -/
theorem UniqueIds.eq {m : OrderManager} (h : UniqueIds m) {o o' : TrackedOrder} (ho : o ∈ m.orders)
    (ho' : o' ∈ m.orders) (hexchange : o.exchangeId = o'.exchangeId) (hid : o.orderId = o'.orderId) : o = o' := by
  by_contra hne
  have hsymm : Std.Symm fun a b : TrackedOrder => a.exchangeId = b.exchangeId → a.orderId ≠ b.orderId :=
    ⟨fun a b hab heq hid => hab heq.symm hid.symm⟩
  exact List.Pairwise.forall h ho ho' hne hexchange hid

theorem leads_iff {m : OrderManager} {order : TrackedOrder} :
    Leads m.orders order ↔ ∃ first, m.getOrderDetails order.orderId = some first ∧
      first.exchangeId = order.exchangeId := Option.map_eq_some_iff

theorem answered_eq_self_iff {answer : String → OrderResponse} {order : TrackedOrder} :
    answered answer order = order ↔ order.latestResponse = answer order.orderId := by
  obtain ⟨orderId, exchangeId, symbol, originalRequest, latestResponse⟩ := order
  unfold answered
  simp only [TrackedOrder.mk.injEq, true_and, eq_comm]

section

variable {m : OrderManager} {answer : String → OrderResponse} {exchange symbol : String}

theorem mem_ids_iff {id : String} : id ∈ m.getExchangeSymbolOrderIds exchange symbol ↔
    ∃ order ∈ m.orders, Checked exchange symbol order ∧ order.orderId = id := by
  unfold OrderManager.getExchangeSymbolOrderIds Checked
  simp only [List.mem_map, List.mem_filter, decide_eq_true_eq, and_assoc]

/-- Every tracked order has a first entry with its id. -/
theorem exists_first {order : TrackedOrder} (horder : order ∈ m.orders) :
    ∃ first ∈ m.orders, m.getOrderDetails order.orderId = some first ∧ first.orderId = order.orderId := by
  cases hfind : m.getOrderDetails order.orderId with
  | some first => exact ⟨first, List.mem_of_find?_eq_some hfind, rfl, by simpa using List.find?_some hfind⟩
  | none =>
      have hnot := List.find?_eq_none.mp hfind order horder
      simp at hnot

theorem leads_iff_of_first {order first : TrackedOrder} (hfirst : m.getOrderDetails order.orderId = some first) :
    Leads m.orders order ↔ first.exchangeId = order.exchangeId := by
  rw [leads_iff]
  constructor
  · rintro ⟨first', hfirst', heq⟩
    rw [hfirst] at hfirst'
    cases hfirst'
    exact heq
  · exact fun heq => ⟨first, hfirst, heq⟩

/-- The check does what it should exactly if every order is written to that it is about, and no other. -/
theorem checksOwn_iff (h : UniqueIds m) {query : String → String → String → Except Error OrderResponse}
    (hquery : ∀ id ∈ m.getExchangeSymbolOrderIds exchange symbol, query exchange symbol id = .ok (answer id)) :
    ChecksOwn m query answer exchange symbol ↔ ∀ order ∈ m.orders,
      written answer (m.getExchangeSymbolOrderIds exchange symbol) m.orders order =
        if Checked exchange symbol order then answered answer order else order := by
  have hmem : ∀ id ∈ m.getExchangeSymbolOrderIds exchange symbol, ∃ order ∈ m.orders, order.orderId = id := by
    intro id hid
    obtain ⟨order, horder, _, heq⟩ := mem_ids_iff.mp hid
    exact ⟨order, horder, heq⟩
  unfold ChecksOwn OrderManager.checkOrderStatus
  rw [checkEach_eq h hquery hmem, Prod.mk.injEq, OrderManager.mk.injEq, and_iff_left rfl, List.map_inj_left]

/-- A shadowed order is not written to, and the entry that shadows it is. -/
theorem unshadowed_of_written (hwritten : ∀ order ∈ m.orders,
      written answer (m.getExchangeSymbolOrderIds exchange symbol) m.orders order =
        if Checked exchange symbol order then answered answer order else order) :
    Unshadowed m answer exchange symbol := by
  intro order horder hchecked first hfirst hne
  have hid : first.orderId = order.orderId := by simpa using List.find?_some hfirst
  constructor
  · have hself := hwritten first (List.mem_of_find?_eq_some hfirst)
    have hleads : Leads m.orders first := (leads_iff_of_first (by rw [hid]; exact hfirst)).mpr rfl
    have hunchecked : ¬ Checked exchange symbol first := fun hc => hne (hc.1.trans hchecked.1.symm)
    rw [written_of_leads _ _ _ _ hleads, if_pos (mem_ids_iff.mpr ⟨order, horder, hchecked, hid.symm⟩),
      if_neg hunchecked, answered_eq_self_iff, hid] at hself
    exact hself
  · have hself := hwritten order horder
    rw [written_of_not_leads _ _ _ _ (mt (leads_iff_of_first hfirst).mp hne), if_pos hchecked] at hself
    exact answered_eq_self_iff.mp hself.symm

theorem written_of_unshadowed (h : UniqueIds m) (hunshadowed : Unshadowed m answer exchange symbol)
    {order : TrackedOrder} (horder : order ∈ m.orders) :
    written answer (m.getExchangeSymbolOrderIds exchange symbol) m.orders order =
      if Checked exchange symbol order then answered answer order else order := by
  obtain ⟨first, hfirstmem, hfirst, hid⟩ := exists_first horder
  by_cases hchecked : Checked exchange symbol order
  · rw [if_pos hchecked]
    by_cases hsame : first.exchangeId = order.exchangeId
    · rw [written_of_leads _ _ _ _ ((leads_iff_of_first hfirst).mpr hsame),
        if_pos (mem_ids_iff.mpr ⟨order, horder, hchecked, rfl⟩)]
    · rw [written_of_not_leads _ _ _ _ (mt (leads_iff_of_first hfirst).mp hsame)]
      exact (answered_eq_self_iff.mpr (hunshadowed order horder hchecked first hfirst hsame).2).symm
  · rw [if_neg hchecked]
    by_cases hwrites : order.orderId ∈ m.getExchangeSymbolOrderIds exchange symbol ∧ Leads m.orders order
    · -- it is first for a checked order of another exchange
      obtain ⟨hlisted, hleads⟩ := hwrites
      obtain rfl := h.eq hfirstmem horder ((leads_iff_of_first hfirst).mp hleads) hid
      obtain ⟨other, hother, hotherchecked, hotherid⟩ := mem_ids_iff.mp hlisted
      have hne : first.exchangeId ≠ other.exchangeId := by
        intro hsame
        obtain rfl := h.eq horder hother hsame hotherid.symm
        exact hchecked hotherchecked
      have hown := (hunshadowed other hother hotherchecked first (by rw [hotherid]; exact hfirst) hne).1
      rw [written_of_leads _ _ _ _ hleads, if_pos hlisted]
      exact answered_eq_self_iff.mpr (hown.trans (congrArg answer hotherid))
    · exact if_neg hwrites

end

/-- **A status check changes only its own orders** exactly if none of them is shadowed by an earlier entry with its
    id, unless both have the answer already. -/
theorem status_check_iff {m : OrderManager} (h : UniqueIds m)
    {query : String → String → String → Except Error OrderResponse} {answer : String → OrderResponse}
    {exchange symbol : String}
    (hquery : ∀ id ∈ m.getExchangeSymbolOrderIds exchange symbol, query exchange symbol id = .ok (answer id)) :
    ChecksOwn m query answer exchange symbol ↔ Unshadowed m answer exchange symbol := by
  rw [checksOwn_iff h hquery]
  exact ⟨unshadowed_of_written, fun hunshadowed _ horder => written_of_unshadowed h hunshadowed horder⟩

/-! ## One id on two exchanges -/

def filledResponse (orderId : String) : OrderResponse := ⟨orderId, "FILLED", none, some 1⟩

/-- An order that was accepted under this id. -/
def openedOrder (exchangeId symbol orderId : String) : TrackedOrder :=
  trackedOrder exchangeId (limitOrder symbol .buy 1 100) ⟨orderId, "NEW", none, none⟩

theorem status_check_iff_own :
    ChecksOwn ⟨[openedOrder "binance" "BTCUSDT" "7", openedOrder "okx" "BTCUSDT" "8"]⟩
      (fun _ _ id => .ok (filledResponse id)) filledResponse "binance" "BTCUSDT" := by
  refine (status_check_iff ?_ (fun _ _ => rfl)).mpr ?_
  · unfold UniqueIds
    decide +kernel
  · unfold Unshadowed
    decide +kernel

/-- The order of the other exchange was tracked first, and is told that it was filled. -/
theorem status_check_shadowed :
    UniqueIds ⟨[openedOrder "okx" "BTC-USDT" "7", openedOrder "binance" "BTCUSDT" "7"]⟩ ∧
    ((OrderManager.checkOrderStatus ⟨[openedOrder "okx" "BTC-USDT" "7", openedOrder "binance" "BTCUSDT" "7"]⟩
      (fun _ _ id => .ok (filledResponse id)) "binance" "BTCUSDT").1.orders.map fun order =>
        (order.exchangeId, order.latestResponse.status)) = [("okx", "FILLED"), ("binance", "NEW")] ∧
    ¬ ChecksOwn ⟨[openedOrder "okx" "BTC-USDT" "7", openedOrder "binance" "BTCUSDT" "7"]⟩
      (fun _ _ id => .ok (filledResponse id)) filledResponse "binance" "BTCUSDT" := by
  have hstatuses : ((OrderManager.checkOrderStatus
      ⟨[openedOrder "okx" "BTC-USDT" "7", openedOrder "binance" "BTCUSDT" "7"]⟩
      (fun _ _ id => .ok (filledResponse id)) "binance" "BTCUSDT").1.orders.map fun order =>
        (order.exchangeId, order.latestResponse.status)) = [("okx", "FILLED"), ("binance", "NEW")] := by
    decide +kernel
  refine ⟨?_, hstatuses, fun h => ?_⟩
  · unfold UniqueIds
    decide +kernel
  · unfold ChecksOwn at h
    rw [h] at hstatuses
    revert hstatuses
    decide +kernel

end Maker
end TradingPlatform
