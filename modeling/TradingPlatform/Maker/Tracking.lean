import TradingPlatform.Maker.Ladders

/-!
# `Maker.Tracking` — which live orders are tracked

The orders of a ladder are all sent, and one error among the results makes an error of the call before anything is
tracked. So the accepted orders are in the manager exactly when all orders were accepted or none; the two orders of
`place_orders` are tracked one by one (`placed_tracked_iff`).
-/

namespace TradingPlatform
namespace Maker

open Rust Json

variable (client : BinanceOrderClient)

/-! ## Results -/

/-- The results of orders sent from the `n`-th on. -/
def results : Nat → List OrderRequest → List (Except Error OrderResponse)
  | _, []              => []
  | n, order :: orders => client.sendOrder n order :: results (n + 1) orders

/-- The orders that were accepted, each with its response. -/
def acceptedPairs : List OrderRequest → List (Except Error OrderResponse) → List (OrderRequest × OrderResponse)
  | order :: orders, .ok response :: results => (order, response) :: acceptedPairs orders results
  | _ :: orders, .error _ :: results         => acceptedPairs orders results
  | _, _                                     => []

/-- Every order is sent, and what is accepted is recorded; the manager is not touched. -/
theorem sendEach_eq (s : Session) (orders : List OrderRequest) :
    s.sendEach client orders =
      (⟨s.sent + orders.length, s.accepted ++ acceptedPairs orders (results client s.sent orders), s.manager⟩,
        results client s.sent orders) := by
  induction orders generalizing s with
  | nil =>
      unfold Session.sendEach results acceptedPairs
      rw [List.append_nil]
      rfl
  | cons order orders ih =>
      unfold Session.sendEach results
      rw [ih]
      have hlength : s.sent + 1 + orders.length = s.sent + (order :: orders).length := by
        rw [List.length_cons]
        omega
      unfold Session.sendOrder
      cases hanswer : client.sendOrder s.sent order with
      | error e =>
          dsimp only [acceptedPairs]
          rw [hlength]
      | ok response =>
          dsimp only [acceptedPairs]
          rw [hlength, List.append_assoc]
          rfl

/-- All orders are accepted, those sent from the `n`-th on. -/
def AcceptsAll (n : Nat) (orders : List OrderRequest) : Prop :=
  ∀ result ∈ results client n orders, ∃ response, result = .ok response

def RejectsAll (n : Nat) (orders : List OrderRequest) : Prop :=
  ∀ result ∈ results client n orders, ∃ e, result = .error e

variable {client}

theorem acceptsAll_nil (n : Nat) : AcceptsAll client n [] := List.forall_mem_nil _

/-- Without errors every request has its response. -/
theorem errors_eq_nil_iff {results : List (Except Error OrderResponse)} :
    (splitResults results).2 = [] ↔ ∀ result ∈ results, ∃ response, result = .ok response := by
  induction results with
  | nil => simp [splitResults]
  | cons result results ih =>
      rw [List.forall_mem_cons, ← ih]
      cases result <;> simp [splitResults]

/-- Nothing is accepted when everything is rejected. -/
theorem acceptedPairs_eq_nil_iff (n : Nat) (orders : List OrderRequest) :
    acceptedPairs orders (results client n orders) = [] ↔ RejectsAll client n orders := by
  unfold RejectsAll
  induction orders generalizing n with
  | nil => simp [results, acceptedPairs]
  | cons order orders ih =>
      rw [results, List.forall_mem_cons, ← ih]
      cases client.sendOrder n order <;> simp [acceptedPairs]

/-- When everything is accepted, the pairs are matched by position. -/
theorem acceptedPairs_of_acceptsAll {n : Nat} {orders : List OrderRequest} (h : AcceptsAll client n orders) :
    acceptedPairs orders (results client n orders) = orders.zip (splitResults (results client n orders)).1 := by
  unfold AcceptsAll at h
  induction orders generalizing n with
  | nil => rfl
  | cons order orders ih =>
      rw [results, List.forall_mem_cons] at h
      obtain ⟨⟨response, hresponse⟩, hrest⟩ := h
      rw [results, hresponse]
      dsimp only [acceptedPairs, splitResults]
      rw [ih hrest, List.zip_cons_cons]

/-! ## Tracking -/

def trackedPair (pair : OrderRequest × OrderResponse) : TrackedOrder := trackedOrder "binance" pair.1 pair.2

/-- The entries that were added are those of the orders that were accepted, each once. -/
def Tracks (before after : Session) : Prop :=
  ∃ accepted added, after.accepted = before.accepted ++ accepted ∧
    after.manager.orders = before.manager.orders ++ added ∧ added.Perm (accepted.map trackedPair)

theorem Tracks.refl (s : Session) : Tracks s s :=
  ⟨[], [], (List.append_nil _).symm, (List.append_nil _).symm, List.Perm.nil⟩

theorem Tracks.trans {s₁ s₂ s₃ : Session} (h₁ : Tracks s₁ s₂) (h₂ : Tracks s₂ s₃) : Tracks s₁ s₃ := by
  obtain ⟨accepted₁, added₁, haccepted₁, hadded₁, hperm₁⟩ := h₁
  obtain ⟨accepted₂, added₂, haccepted₂, hadded₂, hperm₂⟩ := h₂
  refine ⟨accepted₁ ++ accepted₂, added₁ ++ added₂, ?_, ?_, ?_⟩
  · rw [haccepted₂, haccepted₁, List.append_assoc]
  · rw [hadded₂, hadded₁, List.append_assoc]
  · rw [List.map_append]
    exact hperm₁.append hperm₂

theorem trackResponses_orders (m : OrderManager) (orders : List OrderRequest) (responses : List OrderResponse) :
    (trackResponses m orders responses).orders = m.orders ++ (orders.zip responses).map trackedPair := by
  -- the loop from response `k` on, with the requests from `k` on
  have hloop : ∀ (responses : List OrderResponse) (k : Nat) (m : OrderManager),
      ((responses.zipIdx k).foldl (trackAt orders) m).orders =
        m.orders ++ ((orders.drop k).zip responses).map trackedPair := by
    intro responses
    induction responses with
    | nil => intro k m; simp
    | cons response responses ih =>
        intro k m
        rw [List.zipIdx_cons, List.foldl_cons, ih, trackAt]
        dsimp only
        cases horder : orders[k]? with
        | none =>
            have hdrop : orders.drop k = [] := List.drop_eq_nil_of_le (List.getElem?_eq_none_iff.mp horder)
            have hnext : orders.drop (k + 1) = [] := by
              rw [← List.tail_drop, hdrop]
              rfl
            rw [hdrop, hnext, List.zip_nil_left, List.zip_nil_left]
        | some order =>
            obtain ⟨hlt, horder⟩ := List.getElem?_eq_some_iff.mp horder
            rw [List.drop_eq_getElem_cons hlt, horder, List.zip_cons_cons, List.map_cons]
            show (m.orders ++ [_]) ++ _ = _
            rw [List.append_assoc]
            rfl
  exact hloop responses 0 m

/-- **A ladder** is tracked when all of it was accepted or none. -/
theorem placeAll_tracks_iff (s : Session) (orders : List OrderRequest) :
    Tracks s (s.placeAll client orders).1 ↔
      AcceptsAll client s.sent orders ∨ RejectsAll client s.sent orders := by
  rw [← acceptedPairs_eq_nil_iff, AcceptsAll, ← errors_eq_nil_iff]
  unfold Session.placeAll Session.sendMultipleOrders
  rw [sendEach_eq]
  dsimp only
  cases herrors : (splitResults (results client s.sent orders)).2 with
  | cons e errors =>
      -- the call returns before it tracks anything
      dsimp only
      constructor
      · rintro ⟨accepted, added, haccepted, hadded, hperm⟩
        right
        obtain rfl : added = [] := by simpa using hadded
        have hnone : accepted = [] := List.map_eq_nil_iff.mp hperm.symm.eq_nil
        rw [hnone] at haccepted
        simpa using haccepted
      · rintro (h | h)
        · cases h
        · rw [h]
          exact ⟨[], [], rfl, (List.append_nil _).symm, List.Perm.nil⟩
  | nil =>
      -- every request has its response, at the same position
      dsimp only
      have hpairs := acceptedPairs_of_acceptsAll (errors_eq_nil_iff.mp herrors)
      refine ⟨fun _ => .inl rfl, fun _ => ⟨_, _, rfl, trackResponses_orders _ _ _, ?_⟩⟩
      rw [hpairs]

/-- An order placed on its own is tracked. -/
theorem placeOne_tracks (s : Session) (order : OrderRequest) : Tracks s (s.placeOne client order).1 := by
  unfold Session.placeOne Session.sendOrder
  cases hanswer : client.sendOrder s.sent order with
  | error e => exact ⟨[], [], (List.append_nil _).symm, (List.append_nil _).symm, List.Perm.nil⟩
  | ok response => exact ⟨[(order, response)], [trackedOrder "binance" order response], rfl, rfl, List.Perm.refl _⟩

theorem placeOrders_tracks (maker : MarketMaker) (s : Session) (symbol : String) (mid : F64) :
    Tracks s (s.placeOrders client maker symbol mid).1 := by
  have hbid := @placeOne_tracks client s (maker.pairOrders symbol mid).1
  unfold Session.placeOrders
  dsimp only
  cases hplace : s.placeOne client (maker.pairOrders symbol mid).1 with
  | mk s' outcome =>
      rw [hplace] at hbid
      cases outcome with
      | error e => exact hbid
      | ok _ => exact hbid.trans (placeOne_tracks s' _)

/-! ## Calls -/

/-- The calls that place orders. -/
inductive Call where
  | multiple (mid : F64) (levels : Nat)
  | balanced (mid : F64) (levels : Nat)
  | skewed (mid : F64) (levels : Nat)
  | pair (symbol : String) (mid : F64)

section

variable (client) (maker : MarketMaker) (checker : OrderStatusChecker)

def Session.place (s : Session) : Call → Session × Except Error Unit
  | .multiple mid levels => s.placeMultipleOrders client maker mid levels
  | .balanced mid levels => s.placeBalancedOrders client maker checker mid levels
  | .skewed mid levels   => s.placeSkewedOrders client maker checker mid levels
  | .pair symbol mid     => s.placeOrders client maker symbol mid

/-- The orders a call builds, none when a query of the status checker fails before. -/
def Call.orders : Call → List OrderRequest
  | .multiple mid levels => maker.multipleOrders mid levels
  | .balanced mid levels =>
    match checker.calculateMaxOrders maker.symbol mid maker.orderSize with
    | .error _      => []
    | .ok maxOrders => maker.balancedOrders mid levels maxOrders
  | .skewed mid levels   =>
    match checker.positions, checker.calculateMaxOrders maker.symbol mid maker.orderSize with
    | .ok positions, .ok maxOrders => maker.skewedOrders positions mid levels maxOrders
    | _, _                         => []
  | .pair symbol mid     => [(maker.pairOrders symbol mid).1, (maker.pairOrders symbol mid).2]

def Call.IsPair (call : Call) : Prop := ∃ symbol mid, call = .pair symbol mid

end

theorem tracks_nil_iff (s : Session) : Tracks s s ↔ AcceptsAll client s.sent [] ∨ RejectsAll client s.sent [] :=
  ⟨fun _ => .inl (acceptsAll_nil s.sent), fun _ => Tracks.refl s⟩

theorem placeMultipleOrders_tracks_iff (maker : MarketMaker) (s : Session) (mid : F64) (levels : Nat) :
    Tracks s (s.placeMultipleOrders client maker mid levels).1 ↔
      AcceptsAll client s.sent (maker.multipleOrders mid levels) ∨
        RejectsAll client s.sent (maker.multipleOrders mid levels) := by
  unfold Session.placeMultipleOrders
  dsimp only
  cases maker.multipleOrders mid levels with
  | nil => exact tracks_nil_iff s
  | cons order orders => exact placeAll_tracks_iff s (order :: orders)

/-- **A call that places a ladder** tracks what is live when all its orders are accepted, or none is. -/
theorem place_tracks_iff (maker : MarketMaker) (checker : OrderStatusChecker) (s : Session) {call : Call}
    (hladder : ¬ call.IsPair) :
    Tracks s (s.place client maker checker call).1 ↔
      AcceptsAll client s.sent (call.orders maker checker) ∨
        RejectsAll client s.sent (call.orders maker checker) := by
  cases call with
  | multiple mid levels => exact placeMultipleOrders_tracks_iff maker s mid levels
  | balanced mid levels =>
      dsimp only [Call.orders, Session.place, Session.placeBalancedOrders]
      cases checker.calculateMaxOrders maker.symbol mid maker.orderSize with
      | error e => exact tracks_nil_iff s
      | ok maxOrders => exact placeAll_tracks_iff s _
  | skewed mid levels =>
      dsimp only [Call.orders, Session.place, Session.placeSkewedOrders]
      cases checker.positions with
      | error e => exact tracks_nil_iff s
      | ok positions =>
          cases checker.calculateMaxOrders maker.symbol mid maker.orderSize with
          | error e => exact tracks_nil_iff s
          | ok maxOrders => exact placeAll_tracks_iff s _
  | pair symbol mid => exact absurd ⟨symbol, mid, rfl⟩ hladder

/-- **What is live is tracked**, for every call and all answers, exactly when the call places the pair of orders, or
    all orders of its ladder are accepted, or none is. -/
theorem placed_tracked_iff (client : BinanceOrderClient) (maker : MarketMaker) (checker : OrderStatusChecker)
    (s : Session) (call : Call) :
    Tracks s (s.place client maker checker call).1 ↔
      call.IsPair ∨ AcceptsAll client s.sent (call.orders maker checker) ∨
        RejectsAll client s.sent (call.orders maker checker) := by
  by_cases hpair : call.IsPair
  · obtain ⟨symbol, mid, rfl⟩ := hpair
    exact ⟨fun _ => .inl ⟨symbol, mid, rfl⟩, fun _ => placeOrders_tracks maker s symbol mid⟩
  · rw [place_tracks_iff maker checker s hpair, or_iff_right hpair]

/-- An exchange that accepts the first order and does not answer the others. -/
def acceptsFirst : BinanceOrderClient where
  toText   := fun _ => ""
  answer n := fun _ => if n = 0 then some (.object [("orderId", .ofNat 1), ("status", .string "NEW")]) else none

/-- The bid of one level is live and not tracked. -/
theorem not_placed_tracked : ¬ ∀ (client : BinanceOrderClient) (maker : MarketMaker) (checker : OrderStatusChecker)
    (s : Session) (call : Call), Tracks s (s.place client maker checker call).1 := by
  intro h
  let maker : MarketMaker := ⟨"BTCUSDT", 2, 1, .finite (1 / 10)⟩
  have horders : maker.multipleOrders 100 1 =
      [limitOrder "BTCUSDT" .buy 2 99, limitOrder "BTCUSDT" .sell 2 101] := by decide +kernel
  have htracks := h acceptsFirst maker ⟨.error .http, .error .http, .error .http⟩ .new (.multiple 100 1)
  rw [place_tracks_iff maker _ _ (by rintro ⟨symbol, mid, hcall⟩; cases hcall), Call.orders, horders] at htracks
  rcases htracks with haccepts | hrejects
  · obtain ⟨response, hresponse⟩ := haccepts (.error .http) (List.mem_cons_of_mem _ List.mem_cons_self)
    cases hresponse
  · obtain ⟨e, he⟩ := hrejects _ (List.mem_cons_self)
    cases he

end Maker
end TradingPlatform
