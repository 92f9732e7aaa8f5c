import TradingPlatform.Library.Spinning
import TradingPlatform.Cache.MarketCache

/-!
# `Cache.Progress` — when `read_snapshot` returns

`read_snapshot` spins until it has read one version. If the writer makes no step meanwhile, that takes 17 loads at
most, unless the writer has stored the odd counter of an update and not yet the even one: then no reader ever returns
(`read_snapshot_returns_iff`). An update that has only loaded the counter keeps no reader waiting.
-/

namespace TradingPlatform
namespace Cache
namespace SymbolSlot

open Machine Seqlock

variable {R : Type*} [DecidableEq R]

/-- The slot after these loads and stores. -/
def after (actions : List (Action R)) : Slot R := (run step new actions).1

theorem inv_after (actions : List (Action R)) : Inv Quote.stores loads (fun _ => 0) (after actions) :=
  (run_keeps Quote.stores loads (fun _ => 0) actions).1

theorem seq_even_iff (actions : List (Action R)) : (after actions).seq % 2 = 0 ↔ (after actions).Quiet := by
  have hwriter := (inv_after actions).writer
  constructor
  · intro heven
    by_contra hbusy
    rw [hwriter.odd hbusy] at heven
    exact absurd heven (by decide)
  · intro hquiet
    rw [(hwriter.quiet hquiet).1]
    exact stamp_even _

/-- **A snapshot is returned**, while the writer makes no step and the readers any, exactly when no update has stored the
    odd counter and not yet the even one, and the reader makes the loads it has left, which are 17 at most. -/
theorem read_snapshot_returns_iff (actions later : List (Action R)) (reader : R)
    (hcalled : (after actions).readers reader ≠ .idle) (hreaders : ∀ action ∈ later, action.OfReader) :
    ((∃ read ∈ (run step (after actions) later).2, read.reader = reader) ↔
      (after actions).Quiet ∧ loadsLeft loads (after actions) reader ≤ later.countP (Action.loads reader)) ∧
    loadsLeft loads (after actions) reader ≤ 17 := by
  rw [← seq_even_iff]
  exact ⟨returns_iff hcalled hreaders, loadsLeft_le (inv_after actions) reader⟩

/-- The writer has made its first store, and forty loads do not help. -/
theorem read_snapshot_returns_iff_stalled :
    ¬ ∃ read ∈ (run step (after [.update ⟨10, 11, 1, 2, 100, 101⟩, .store, .read true])
      (List.replicate 40 (.load true))).2, read.reader = true := by
  have hcalled : (after [.update ⟨10, 11, 1, 2, 100, 101⟩, .store, .read true]).readers true ≠ .idle := by
    show Reader.starting 0 ≠ Reader.idle
    exact nofun
  have hreaders : ∀ action ∈ List.replicate 40 (Action.load true : Action Bool), action.OfReader := by
    intro action hmem
    obtain rfl := List.eq_of_mem_replicate hmem
    trivial
  rw [(read_snapshot_returns_iff _ _ true hcalled hreaders).1]
  exact fun h => h.1

end SymbolSlot
end Cache
end TradingPlatform
