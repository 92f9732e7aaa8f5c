import TradingPlatform.Oms.Orders
import Mathlib.Algebra.Order.BigOperators.Group.List
import Mathlib.Order.Bounds.Basic

/-!
# `Oms.Performance` — the profits of the system and its metrics

`update_performance_metrics` is called with the profit of every fill that closes or reverses a position. Over any run
of calls, and of resets of the daily profit, the metrics are what the profits make of them, and the total is what the
positions have realised (`metrics_of_profits`). But the average win is the net profit over the number of wins: it is
the mean of the wins as long as nothing has been lost, and never again (`averages_iff`).

Arithmetic is exact here, as in `Oms.Position`: the `f64` sums of the source are these up to rounding.
-/

namespace TradingPlatform
namespace Oms

open Market Machine

namespace Performance

/-! ## Profits -/

/-- The calls, and the reset at the start of each day. -/
inductive Event where
  | call (call : Call)
  | resetDailyPnl

inductive Entry where
  | profit (pnl : ℚ)
  | reset

/-- The profits a call realises. -/
def profitsOf (oms : OrderManagementSystem) : Call → List ℚ
  | .update orderId (.filled filledQuantity avgPrice) timestamp =>
    (oms.getOrder orderId).elim [] fun order =>
      ((oms.position order.symbol order.exchange timestamp).closingPnl order.side filledQuantity avgPrice).toList
  | _ => []

def ledgerStep (oms : OrderManagementSystem) : Event → OrderManagementSystem × List Entry
  | .call call     => ((Oms.step oms call).1, (profitsOf oms call).map .profit)
  | .resetDailyPnl => ({ oms with dailyPnl := 0 }, [.reset])

def profits (entries : List Entry) : List ℚ :=
  entries.filterMap fun
    | .profit pnl => some pnl
    | .reset      => none

/-- The profits since the last reset. -/
def today (entries : List Entry) : List ℚ :=
  entries.foldl (fun (sofar : List ℚ) entry => match entry with
    | .profit pnl => sofar ++ [pnl]
    | .reset      => []) []

theorem profits_append (entries more : List Entry) : profits (entries ++ more) = profits entries ++ profits more :=
  List.filterMap_append

theorem profits_map (pnls : List ℚ) : profits (pnls.map .profit) = pnls := by
  induction pnls with
  | nil => rfl
  | cons pnl pnls ih => exact congrArg (pnl :: ·) ih

theorem today_profits (entries : List Entry) (pnls : List ℚ) :
    today (entries ++ pnls.map .profit) = today entries ++ pnls := by
  induction pnls generalizing entries with
  | nil => simp
  | cons pnl pnls ih =>
      have hone : today (entries ++ [.profit pnl]) = today entries ++ [pnl] := by
        unfold today
        rw [List.foldl_append]
        rfl
      rw [List.map_cons, List.append_cons, ih, hone, List.append_assoc, List.singleton_append]

/-! ## Metrics -/

/-- The metrics of these profits. -/
structure Tallied (metrics : PerformanceMetrics) (pnls : List ℚ) : Prop where
  totalTrades   : metrics.totalTrades = pnls.length
  winningTrades : metrics.winningTrades = pnls.countP (0 < ·)
  losingTrades  : metrics.losingTrades = pnls.countP (· < 0)
  totalPnl      : metrics.totalPnl = pnls.sum
  /-- the lowest the total has been -/
  maxDrawdown   : IsLeast { total | ∃ done, done <+: pnls ∧ total = done.sum } metrics.maxDrawdown
  winRate       : metrics.winRate = metrics.winningTrades / metrics.totalTrades
  avgWin        : metrics.avgWin = max metrics.totalPnl 0 / metrics.winningTrades
  avgLoss       : metrics.avgLoss = min metrics.totalPnl 0 / metrics.losingTrades

theorem Tallied.new (maxPositionSize maxDailyLoss maxTotalExposure : ℚ) :
    Tallied (OrderManagementSystem.new maxPositionSize maxDailyLoss maxTotalExposure).performance [] where
  totalTrades   := rfl
  winningTrades := rfl
  losingTrades  := rfl
  totalPnl      := rfl
  maxDrawdown   := by
    refine ⟨⟨[], List.nil_prefix, rfl⟩, ?_⟩
    rintro _ ⟨done, hdone, rfl⟩
    rw [List.prefix_nil.mp hdone]
    exact le_refl _
  winRate       := by simp [OrderManagementSystem.new]
  avgWin        := by simp [OrderManagementSystem.new]
  avgLoss       := by simp [OrderManagementSystem.new]

/-- The lowest of one total more. -/
theorem isLeast_concat {pnls : List ℚ} {low : ℚ} (h : IsLeast { total | ∃ done, done <+: pnls ∧ total = done.sum } low)
    (pnl : ℚ) :
    IsLeast { total | ∃ done, done <+: pnls ++ [pnl] ∧ total = done.sum } (min (pnls ++ [pnl]).sum low) := by
  have hset : { total | ∃ done, done <+: pnls ++ [pnl] ∧ total = done.sum }
      = { (pnls ++ [pnl]).sum } ∪ { total | ∃ done, done <+: pnls ∧ total = done.sum } := by
    ext total
    constructor
    · rintro ⟨done, hdone, rfl⟩
      rcases List.prefix_concat_iff.mp hdone with rfl | hdone
      · exact Or.inl (Set.mem_singleton _)
      · exact Or.inr ⟨done, hdone, rfl⟩
    · rintro (rfl | ⟨done, hdone, rfl⟩)
      · exact ⟨_, List.prefix_refl _, rfl⟩
      · exact ⟨done, hdone.trans (List.prefix_append _ _), rfl⟩
  rw [hset]
  exact isLeast_singleton.union h

theorem Tallied.update {metrics : PerformanceMetrics} {pnls : List ℚ} (h : Tallied metrics pnls) (pnl : ℚ) :
    Tallied (metrics.update pnl) (pnls ++ [pnl]) := by
  have htotal : (metrics.update pnl).totalPnl = (pnls ++ [pnl]).sum := by
    rw [List.sum_append, List.sum_singleton, ← h.totalPnl]
    rfl
  refine ⟨?_, ?_, ?_, htotal, ?_, rfl, ?_, ?_⟩
  · rw [List.length_append, List.length_singleton, ← h.totalTrades]
    rfl
  · rw [List.countP_append, List.countP_singleton, ← h.winningTrades]
    show (if 0 < pnl then metrics.winningTrades + 1 else metrics.winningTrades) = _
    by_cases hwin : 0 < pnl <;> simp [hwin]
  · rw [List.countP_append, List.countP_singleton, ← h.losingTrades]
    show (if pnl < 0 then metrics.losingTrades + 1 else metrics.losingTrades) = _
    by_cases hloss : pnl < 0 <;> simp [hloss]
  · have hleast := isLeast_concat h.maxDrawdown pnl
    rw [← htotal] at hleast
    refine (show (metrics.update pnl).maxDrawdown = min (metrics.update pnl).totalPnl metrics.maxDrawdown from ?_) ▸
      hleast
    show (if (metrics.update pnl).totalPnl < metrics.maxDrawdown then (metrics.update pnl).totalPnl
      else metrics.maxDrawdown) = _
    split
    next hlower => exact (min_eq_left hlower.le).symm
    next hnot => exact (min_eq_right (not_lt.mp hnot)).symm
  · show (if 0 < (metrics.update pnl).winningTrades
      then max (metrics.update pnl).totalPnl 0 / (metrics.update pnl).winningTrades else metrics.avgWin) = _
    split
    next => rfl
    next hnone =>
      have hsame : metrics.winningTrades ≤ (metrics.update pnl).winningTrades := by
        show metrics.winningTrades ≤ if 0 < pnl then metrics.winningTrades + 1 else metrics.winningTrades
        split <;> omega
      rw [h.avgWin, show (metrics.update pnl).winningTrades = 0 by omega, show metrics.winningTrades = 0 by omega,
        Nat.cast_zero, div_zero, div_zero]
  · show (if 0 < (metrics.update pnl).losingTrades
      then min (metrics.update pnl).totalPnl 0 / (metrics.update pnl).losingTrades else metrics.avgLoss) = _
    split
    next => rfl
    next hnone =>
      have hsame : metrics.losingTrades ≤ (metrics.update pnl).losingTrades := by
        show metrics.losingTrades ≤ if pnl < 0 then metrics.losingTrades + 1 else metrics.losingTrades
        split <;> omega
      rw [h.avgLoss, show (metrics.update pnl).losingTrades = 0 by omega, show metrics.losingTrades = 0 by omega,
        Nat.cast_zero, div_zero, div_zero]

theorem Tallied.foldl {metrics : PerformanceMetrics} {pnls : List ℚ} (h : Tallied metrics pnls) (more : List ℚ) :
    Tallied (more.foldl PerformanceMetrics.update metrics) (pnls ++ more) := by
  induction more generalizing metrics pnls with
  | nil =>
      rw [List.append_nil]
      exact h
  | cons pnl more ih =>
      rw [List.append_cons]
      exact ih (h.update pnl)

/-! ## What a call realises -/

/-- What the positions have realised. -/
def realized (oms : OrderManagementSystem) : ℚ := (oms.positions.map fun entry => entry.2.realizedPnl).sum

/-- What a list of profits does to the system. -/
structure Realises (oms next : OrderManagementSystem) (pnls : List ℚ) : Prop where
  performance : next.performance = pnls.foldl PerformanceMetrics.update oms.performance
  dailyPnl    : next.dailyPnl = oms.dailyPnl + pnls.sum
  positions   : realized next = realized oms + pnls.sum

theorem Realises.nothing {oms next : OrderManagementSystem} (hperformance : next.performance = oms.performance)
    (hdaily : next.dailyPnl = oms.dailyPnl) (hpositions : next.positions = oms.positions) : Realises oms next [] where
  performance := hperformance
  dailyPnl    := by rw [hdaily, List.sum_nil, add_zero]
  positions   := by rw [realized, hpositions, List.sum_nil, add_zero, realized]

variable {oms : OrderManagementSystem}

/-- **A fill** realises what it closes. -/
theorem realises_updatePosition (oms : OrderManagementSystem) (symbol : String) (exchange : Exchange) (side : Side) (quantity price : ℚ)
    (timestamp : Int) :
    Realises oms (oms.updatePosition symbol exchange side quantity price timestamp)
      ((oms.position symbol exchange timestamp).closingPnl side quantity price).toList := by
  have hrealized : realized (oms.updatePosition symbol exchange side quantity price timestamp) = realized oms +
      ((oms.position symbol exchange timestamp).closingPnl side quantity price).getD 0 := by
    have hfound : ((oms.getPosition symbol exchange).map Position.realizedPnl).getD 0 =
        (oms.position symbol exchange timestamp).realizedPnl := by
      unfold OrderManagementSystem.position
      cases oms.getPosition symbol exchange <;> rfl
    have hput := Assoc.sum_put Position.realizedPnl (symbol, exchange)
      ((oms.position symbol exchange timestamp).filled side quantity price timestamp) oms.positions
    have hfilled : ((oms.position symbol exchange timestamp).filled side quantity price timestamp).realizedPnl =
        (oms.position symbol exchange timestamp).realizedPnl +
          ((oms.position symbol exchange timestamp).closingPnl side quantity price).getD 0 := rfl
    unfold realized
    rw [OrderManagementSystem.positions_updatePosition]
    unfold OrderManagementSystem.getPosition at hfound
    rw [hfound, hfilled] at hput
    linarith
  cases hclosing : (oms.position symbol exchange timestamp).closingPnl side quantity price with
  | none =>
      rw [hclosing] at hrealized
      have hnext : (oms.updatePosition symbol exchange side quantity price timestamp).performance = oms.performance ∧
          (oms.updatePosition symbol exchange side quantity price timestamp).dailyPnl = oms.dailyPnl := by
        unfold OrderManagementSystem.updatePosition
        dsimp only
        rw [hclosing]
        exact ⟨rfl, rfl⟩
      refine ⟨hnext.1, ?_, hrealized⟩
      rw [hnext.2]
      exact (add_zero _).symm
  | some pnl =>
      rw [hclosing] at hrealized
      have hnext : (oms.updatePosition symbol exchange side quantity price timestamp).performance =
          oms.performance.update pnl ∧
          (oms.updatePosition symbol exchange side quantity price timestamp).dailyPnl = oms.dailyPnl + pnl := by
        unfold OrderManagementSystem.updatePosition
        dsimp only
        rw [hclosing]
        exact ⟨rfl, rfl⟩
      refine ⟨hnext.1, ?_, ?_⟩
      · rw [Option.toList_some, List.sum_singleton]
        exact hnext.2
      · rw [Option.toList_some, List.sum_singleton]
        exact hrealized

/-- **One call** realises its profits. -/
theorem realises_step (call : Call) : Realises oms (Oms.step oms call).1 (profitsOf oms call) := by
  cases call with
  | submit symbol exchange side orderType quantity price timestamp =>
      unfold Oms.step profitsOf
      dsimp only
      cases hsubmit : oms.submitOrder symbol exchange side orderType quantity price timestamp with
      | error message => exact Realises.nothing rfl rfl rfl
      | ok result =>
          obtain ⟨-, -, hnext⟩ := OrderManagementSystem.submitOrder_ok hsubmit
          dsimp only
          rw [hnext]
          exact Realises.nothing rfl rfl rfl
  | update orderId status timestamp =>
      unfold Oms.step
      dsimp only
      cases hget : oms.getOrder orderId with
      | none =>
          have hprofits : profitsOf oms (.update orderId status timestamp) = [] := by
            cases status <;> simp [profitsOf, hget]
          rw [OrderManagementSystem.updateOrderStatus_of_none hget, hprofits]
          exact Realises.nothing rfl rfl rfl
      | some order =>
          unfold OrderManagementSystem.updateOrderStatus
          rw [hget]
          dsimp only
          cases status with
          | filled filledQuantity avgPrice =>
              have hprofits : profitsOf oms (.update orderId (.filled filledQuantity avgPrice) timestamp) =
                  ((oms.position order.symbol order.exchange timestamp).closingPnl order.side filledQuantity
                    avgPrice).toList := by
                unfold profitsOf
                dsimp only
                rw [hget, Option.elim_some]
              rw [hprofits]
              have hfill := realises_updatePosition
                { oms with
                  orders := Assoc.put orderId { order with status := .filled filledQuantity avgPrice } oms.orders }
                order.symbol order.exchange order.side filledQuantity avgPrice timestamp
              exact ⟨hfill.performance, hfill.dailyPnl, hfill.positions⟩
          | _ => exact Realises.nothing rfl rfl rfl
  | cancel orderId =>
      unfold Oms.step profitsOf
      dsimp only
      cases hcancel : oms.cancelOrder orderId with
      | error message => exact Realises.nothing rfl rfl rfl
      | ok next =>
          obtain ⟨order, -, -, hnext⟩ := OrderManagementSystem.cancelOrder_ok hcancel
          dsimp only
          rw [hnext]
          exact Realises.nothing rfl rfl rfl

/-! ## Whole runs -/

/-- The books of the system agree with the profits. -/
structure Books (oms : OrderManagementSystem) (entries : List Entry) : Prop where
  tallied  : Tallied oms.performance (profits entries)
  dailyPnl : oms.dailyPnl = (today entries).sum
  realized : realized oms = (profits entries).sum

theorem Books.step {entries : List Entry} (h : Books oms entries) (event : Event) :
    Books (ledgerStep oms event).1 (entries ++ (ledgerStep oms event).2) := by
  cases event with
  | call call =>
      have hstep : Realises oms (Oms.step oms call).1 (profitsOf oms call) := realises_step call
      unfold ledgerStep
      dsimp only
      constructor
      · rw [profits_append, profits_map, hstep.performance]
        exact h.tallied.foldl (profitsOf oms call)
      · rw [today_profits, List.sum_append, hstep.dailyPnl, h.dailyPnl]
      · rw [profits_append, profits_map, List.sum_append, hstep.positions, h.realized]
  | resetDailyPnl =>
      have hnone : profits (entries ++ [.reset]) = profits entries := by
        rw [profits_append]
        exact List.append_nil _
      have htoday : today (entries ++ [.reset]) = [] := by
        unfold today
        rw [List.foldl_append]
        rfl
      constructor
      · rw [show (ledgerStep oms .resetDailyPnl).2 = [.reset] from rfl, hnone]
        exact h.tallied
      · rw [show (ledgerStep oms .resetDailyPnl).2 = [.reset] from rfl, htoday]
        rfl
      · rw [show (ledgerStep oms .resetDailyPnl).2 = [.reset] from rfl, hnone]
        exact h.realized

theorem books_run (maxPositionSize maxDailyLoss maxTotalExposure : ℚ) (events : List Event) :
    Books (run ledgerStep (.new maxPositionSize maxDailyLoss maxTotalExposure) events).1
      (run ledgerStep (.new maxPositionSize maxDailyLoss maxTotalExposure) events).2 := by
  have hnew : Books (OrderManagementSystem.new maxPositionSize maxDailyLoss maxTotalExposure) [] :=
    ⟨Tallied.new maxPositionSize maxDailyLoss maxTotalExposure, rfl, rfl⟩
  have hstep : ∀ (s : OrderManagementSystem) (out : List Entry) (event : Event), Books s out → True →
      Books (ledgerStep s event).1 (out ++ (ledgerStep s event).2) := fun s out event h _ => h.step event
  exact (Machine.guarded_of_forall (P := fun _ => True) (fun _ _ => trivial) _).trace_invariant hstep hnew

/-- **The metrics are what the profits make of them** over any run, the total is what the positions have realised, and
    the daily profit is what was made since the last reset. -/
theorem metrics_of_profits (maxPositionSize maxDailyLoss maxTotalExposure : ℚ) (events : List Event) :
    Books (run ledgerStep (.new maxPositionSize maxDailyLoss maxTotalExposure) events).1
        (run ledgerStep (.new maxPositionSize maxDailyLoss maxTotalExposure) events).2 ∧
      (run ledgerStep (.new maxPositionSize maxDailyLoss maxTotalExposure) events).1.performance.totalPnl =
        realized (run ledgerStep (.new maxPositionSize maxDailyLoss maxTotalExposure) events).1 :=
  have hbooks := books_run maxPositionSize maxDailyLoss maxTotalExposure events
  ⟨hbooks, hbooks.tallied.totalPnl.trans hbooks.realized.symm⟩

/-! ## The average win -/

/-- 0 of no profits, as the averages of the metrics start. -/
def mean (pnls : List ℚ) : ℚ := pnls.sum / pnls.length

def wins (pnls : List ℚ) : List ℚ := pnls.filter (0 < ·)

def losses (pnls : List ℚ) : List ℚ := pnls.filter (· < 0)

theorem sum_wins_losses (pnls : List ℚ) : pnls.sum = (wins pnls).sum + (losses pnls).sum := by
  induction pnls with
  | nil => exact (add_zero _).symm
  | cons pnl pnls ih =>
      unfold wins losses at *
      rw [List.sum_cons, ih, List.filter_cons, List.filter_cons]
      rcases lt_trichotomy pnl 0 with hloss | rfl | hwin
      · simp only [hloss, hloss.not_gt, decide_true, decide_false, if_true, Bool.false_eq_true, if_false, List.sum_cons]
        ring
      · simp
      · simp only [hwin, hwin.not_gt, decide_true, decide_false, if_true, Bool.false_eq_true, if_false, List.sum_cons]
        ring

theorem sum_pos_of_forall {pnls : List ℚ} (h : ∀ pnl ∈ pnls, 0 < pnl) : 0 ≤ pnls.sum ∧ (pnls.sum = 0 ↔ pnls = []) := by
  refine ⟨List.sum_nonneg fun pnl hpnl => (h pnl hpnl).le, fun hsum => ?_, fun hnil => hnil ▸ rfl⟩
  by_contra hne
  exact (List.sum_pos _ h hne).ne' hsum

theorem sum_wins (pnls : List ℚ) : 0 ≤ (wins pnls).sum ∧ ((wins pnls).sum = 0 ↔ wins pnls = []) :=
  sum_pos_of_forall fun _ hpnl => of_decide_eq_true (List.mem_filter.mp hpnl).2

theorem sum_losses (pnls : List ℚ) : (losses pnls).sum ≤ 0 ∧ ((losses pnls).sum = 0 ↔ losses pnls = []) := by
  have hpos : ∀ pnl ∈ (losses pnls).map (-·), 0 < pnl := by
    intro pnl hpnl
    obtain ⟨loss, hloss, rfl⟩ := List.mem_map.mp hpnl
    exact neg_pos.mpr (of_decide_eq_true (List.mem_filter.mp hloss).2)
  obtain ⟨hnonneg, hzero⟩ := sum_pos_of_forall hpos
  rw [← List.sum_neg] at hnonneg hzero
  rw [neg_eq_zero, List.map_eq_nil_iff] at hzero
  exact ⟨neg_nonneg.mp hnonneg, hzero⟩

theorem Tallied.avgWin_iff {metrics : PerformanceMetrics} {pnls : List ℚ} (h : Tallied metrics pnls) :
    metrics.avgWin = mean (wins pnls) ↔ metrics.winningTrades = 0 ∨ metrics.losingTrades = 0 := by
  have hwins : metrics.winningTrades = (wins pnls).length := h.winningTrades.trans List.countP_eq_length_filter
  have hlosses : metrics.losingTrades = (losses pnls).length := h.losingTrades.trans List.countP_eq_length_filter
  have hsplit := sum_wins_losses pnls
  rw [h.avgWin, h.totalPnl, hwins, hlosses, mean, List.length_eq_zero_iff, List.length_eq_zero_iff]
  by_cases hnil : wins pnls = []
  · simp [hnil]
  · have hsum : (wins pnls).sum ≠ 0 := fun hzero => hnil ((sum_wins pnls).2.mp hzero)
    have hlength : ((wins pnls).length : ℚ) ≠ 0 := by
      rw [Nat.cast_ne_zero]
      exact fun hzero => hnil (List.length_eq_zero_iff.mp hzero)
    rw [div_left_inj' hlength, ← (sum_losses pnls).2, hsplit]
    constructor
    · intro hmax
      rcases max_choice ((wins pnls).sum + (losses pnls).sum) 0 with heq | heq
      · exact .inr (by linarith)
      · exact absurd (hmax.symm.trans heq) hsum
    · rintro (h' | hzero)
      · exact absurd h' hnil
      · rw [hzero, add_zero]
        exact max_eq_left (sum_wins pnls).1

theorem Tallied.avgLoss_iff {metrics : PerformanceMetrics} {pnls : List ℚ} (h : Tallied metrics pnls) :
    metrics.avgLoss = mean (losses pnls) ↔ metrics.losingTrades = 0 ∨ metrics.winningTrades = 0 := by
  have hwins : metrics.winningTrades = (wins pnls).length := h.winningTrades.trans List.countP_eq_length_filter
  have hlosses : metrics.losingTrades = (losses pnls).length := h.losingTrades.trans List.countP_eq_length_filter
  have hsplit := sum_wins_losses pnls
  rw [h.avgLoss, h.totalPnl, hwins, hlosses, mean, List.length_eq_zero_iff, List.length_eq_zero_iff]
  by_cases hnil : losses pnls = []
  · simp [hnil]
  · have hsum : (losses pnls).sum ≠ 0 := fun hzero => hnil ((sum_losses pnls).2.mp hzero)
    have hlength : ((losses pnls).length : ℚ) ≠ 0 := by
      rw [Nat.cast_ne_zero]
      exact fun hzero => hnil (List.length_eq_zero_iff.mp hzero)
    rw [div_left_inj' hlength, ← (sum_wins pnls).2, hsplit]
    constructor
    · intro hmin
      rcases min_choice ((wins pnls).sum + (losses pnls).sum) 0 with heq | heq
      · exact .inr (by linarith)
      · exact absurd (hmin.symm.trans heq) hsum
    · rintro (h' | hzero)
      · exact absurd h' hnil
      · rw [hzero, zero_add]
        exact min_eq_left (sum_losses pnls).1

/-- **The average win is the mean of the wins** only while there is no loss, and the average loss that of the losses
    only while there is no win: each is the net profit over the count of its own kind. -/
theorem averages_iff (maxPositionSize maxDailyLoss maxTotalExposure : ℚ) (events : List Event) :
    ((run ledgerStep (.new maxPositionSize maxDailyLoss maxTotalExposure) events).1.performance.avgWin =
        mean (wins (profits (run ledgerStep (.new maxPositionSize maxDailyLoss maxTotalExposure) events).2)) ↔
      (run ledgerStep (.new maxPositionSize maxDailyLoss maxTotalExposure) events).1.performance.winningTrades = 0 ∨
        (run ledgerStep (.new maxPositionSize maxDailyLoss maxTotalExposure) events).1.performance.losingTrades = 0) ∧
    ((run ledgerStep (.new maxPositionSize maxDailyLoss maxTotalExposure) events).1.performance.avgLoss =
        mean (losses (profits (run ledgerStep (.new maxPositionSize maxDailyLoss maxTotalExposure) events).2)) ↔
      (run ledgerStep (.new maxPositionSize maxDailyLoss maxTotalExposure) events).1.performance.losingTrades = 0 ∨
        (run ledgerStep (.new maxPositionSize maxDailyLoss maxTotalExposure) events).1.performance.winningTrades = 0) :=
  have htallied := (books_run maxPositionSize maxDailyLoss maxTotalExposure events).tallied
  ⟨htallied.avgWin_iff, htallied.avgLoss_iff⟩

end Performance

end Oms
end TradingPlatform
