import TradingPlatform.Builder.Builder

/-!
# `Builder.Merge` — what the merge of an update does to a side

`applyUpdate` drops the levels close to an update's price, appends the new one, and sorts at the end. In between
the side is not sorted, so its tie to the reference map is stated without order: it holds the entries of the
map, no price twice (`SideLists`). Sorting a side without repeated prices makes it strictly sorted.
-/

namespace TradingPlatform
namespace Builder

open Market Ladder OrderBookBuilder

/-- The side holds exactly the entries of the map, each price once. -/
structure SideLists (grid : ℚ) (levels : List PriceLevel) (m : LevelMap) : Prop where
  lists    : ∀ l, l ∈ levels ↔ m l.price = some l.quantity
  distinct : levels.Pairwise fun l l' => l.price ≠ l'.price
  onGrid   : ∀ l ∈ levels, OnGrid grid l.price

/-- A list of levels as it stands, as a map. -/
def levelMap (levels : List PriceLevel) : LevelMap := fun price =>
  (levels.find? fun l => l.price = price).map PriceLevel.quantity

theorem sideLists_levelMap {grid : ℚ} {levels : List PriceLevel}
    (hdistinct : levels.Pairwise fun l l' => l.price ≠ l'.price) (hgrid : ∀ l ∈ levels, OnGrid grid l.price) :
    SideLists grid levels (levelMap levels) := by
  refine ⟨?_, hdistinct, hgrid⟩
  clear hgrid
  intro l
  induction levels with
  | nil => simp [levelMap]
  | cons x xs ih =>
      obtain ⟨hx, hxs⟩ := List.pairwise_cons.mp hdistinct
      by_cases hprice : x.price = l.price
      · have hmap : levelMap (x :: xs) l.price = some x.quantity := by simp [levelMap, hprice]
        rw [hmap, List.mem_cons]
        constructor
        · rintro (rfl | hl)
          · rfl
          · exact absurd hprice (hx l hl)
        · intro hquantity
          refine Or.inl ?_
          cases l
          cases x
          simp_all
      · have hmap : levelMap (x :: xs) l.price = levelMap xs l.price := by simp [levelMap, hprice]
        rw [hmap, ← ih hxs, List.mem_cons]
        exact or_iff_right fun h => hprice (h ▸ rfl)

/-- An entry of the map after one level: an old one of another price, or the level itself. -/
theorem setLevel_eq_some_iff (m : LevelMap) (u l : PriceLevel) (hu : 0 ≤ u.quantity) :
    setLevel m u l.price = some l.quantity ↔
      (m l.price = some l.quantity ∧ l.price ≠ u.price) ∨ (0 < u.quantity ∧ l = u) := by
  unfold setLevel assign
  by_cases hprice : l.price = u.price
  · have hkey : u.write.1 = l.price := hprice.symm
    rw [← hkey, Function.update_self, hkey]
    simp only [PriceLevel.write, hprice, ne_eq, not_true_eq_false, and_false, false_or]
    by_cases hzero : u.quantity = 0
    · simp [hzero]
    · have hpos : 0 < u.quantity := lt_of_le_of_ne hu (Ne.symm hzero)
      simp only [hzero, if_false, Option.some.injEq, hpos, true_and]
      constructor
      · intro hquantity
        cases l
        cases u
        simp_all
      · rintro rfl
        rfl
  · rw [Function.update_of_ne (show l.price ≠ u.write.1 from hprice)]
    simp only [hprice, ne_eq, not_false_eq_true, and_true]
    refine (or_iff_left ?_).symm
    rintro ⟨_, rfl⟩
    exact hprice rfl

section Merge

variable {grid : ℚ} {levels : List PriceLevel} {m : LevelMap} {u : PriceLevel}

theorem mem_mergeLevel (h : ∀ l ∈ levels, OnGrid grid l.price) (hgrid : epsilon < grid) (hu : OnGrid grid u.price)
    (l : PriceLevel) :
    l ∈ mergeLevel levels u ↔ (l ∈ levels ∧ l.price ≠ u.price) ∨ (0 < u.quantity ∧ l = u) := by
  have hretained : l ∈ levels.filter (fun x => |x.price - u.price| > epsilon) ↔ l ∈ levels ∧ l.price ≠ u.price := by
    rw [List.mem_filter, decide_eq_true_eq]
    exact and_congr_right fun hl => epsilon_lt_abs_sub_iff hgrid (h l hl) hu
  unfold mergeLevel
  by_cases hpos : u.quantity > 0
  · rw [if_pos hpos, List.mem_append, hretained, List.mem_singleton]
    simp [hpos]
  · rw [if_neg hpos, hretained]
    simp [hpos]

/-- **One level of an update is one write in the map.** -/
theorem SideLists.mergeLevel (h : SideLists grid levels m) (hgrid : epsilon < grid) (hu : OnGrid grid u.price)
    (hq : 0 ≤ u.quantity) : SideLists grid (OrderBookBuilder.mergeLevel levels u) (setLevel m u) where
  lists := by
    intro l
    rw [mem_mergeLevel h.onGrid hgrid hu, setLevel_eq_some_iff m u l hq, h.lists]
  distinct := by
    have hretained : (levels.filter fun x => |x.price - u.price| > epsilon).Pairwise
        fun l l' => l.price ≠ l'.price := h.distinct.filter _
    unfold OrderBookBuilder.mergeLevel
    split_ifs
    · -- the new level has a price of its own: what was close to it is gone
      refine List.pairwise_append.mpr ⟨hretained, List.pairwise_singleton _ _, ?_⟩
      intro l hl l' hl'
      obtain ⟨hmem, hfar⟩ := List.mem_filter.mp hl
      rw [List.mem_singleton.mp hl']
      exact (epsilon_lt_abs_sub_iff hgrid (h.onGrid l hmem) hu).mp (of_decide_eq_true hfar)
    · exact hretained
  onGrid := by
    intro l hl
    rcases (mem_mergeLevel h.onGrid hgrid hu l).mp hl with ⟨hmem, _⟩ | ⟨_, rfl⟩
    · exact h.onGrid l hmem
    · exact hu

theorem SideLists.foldl_mergeLevel (h : SideLists grid levels m) (hgrid : epsilon < grid) {us : List PriceLevel}
    (hu : ∀ l ∈ us, OnGrid grid l.price) (hq : ∀ l ∈ us, 0 ≤ l.quantity) :
    SideLists grid (us.foldl OrderBookBuilder.mergeLevel levels) (us.foldl setLevel m) := by
  induction us generalizing levels m with
  | nil => exact h
  | cons l ls ih =>
      apply ih
      · exact h.mergeLevel hgrid (hu l List.mem_cons_self) (hq l List.mem_cons_self)
      · exact fun x hx => hu x (List.mem_cons_of_mem _ hx)
      · exact fun x hx => hq x (List.mem_cons_of_mem _ hx)

end Merge

/-! ## Sorting -/

theorem sortLevels_perm (side : Side) (levels : List PriceLevel) : (sortLevels side levels).Perm levels := by
  cases side <;> exact List.perm_insertionSort _ levels

/-- Sorting prices that are all different sorts them strictly. -/
theorem sortLevels_sorted (side : Side) {levels : List PriceLevel}
    (h : levels.Pairwise fun l l' => l.price ≠ l'.price) :
    (sortLevels side levels).Pairwise fun l l' => side.better l.price l'.price := by
  have hdistinct : (sortLevels side levels).Pairwise fun l l' => l.price ≠ l'.price :=
    (sortLevels_perm side levels).symm.pairwise h fun hne => hne.symm
  cases side with
  | buy =>
      have hle := List.pairwise_insertionSort (fun a b : PriceLevel => b.price ≤ a.price) levels
      exact (hle.and hdistinct).imp fun ⟨hle, hne⟩ => lt_of_le_of_ne hle hne.symm
  | sell =>
      have hle := List.pairwise_insertionSort (fun a b : PriceLevel => a.price ≤ b.price) levels
      exact (hle.and hdistinct).imp fun ⟨hle, hne⟩ => lt_of_le_of_ne hle hne

/-- **A merged side** lists the written map, strictly best first. -/
theorem SideLists.mergeSide {grid : ℚ} {levels : List PriceLevel} {m : LevelMap} (h : SideLists grid levels m)
    (side : Side) (hgrid : epsilon < grid) {us : List PriceLevel} (hu : ∀ l ∈ us, OnGrid grid l.price)
    (hq : ∀ l ∈ us, 0 ≤ l.quantity) :
    SideLists grid (OrderBookBuilder.mergeSide side levels us) (us.foldl setLevel m) ∧
      (OrderBookBuilder.mergeSide side levels us).Pairwise fun l l' => side.better l.price l'.price := by
  have hfold := h.foldl_mergeLevel hgrid hu hq
  have hperm := sortLevels_perm side (us.foldl OrderBookBuilder.mergeLevel levels)
  refine ⟨⟨?_, ?_, ?_⟩, sortLevels_sorted side hfold.distinct⟩
  · intro l
    exact hperm.mem_iff.trans (hfold.lists l)
  · exact hperm.symm.pairwise hfold.distinct fun hne => hne.symm
  · intro l hl
    exact hfold.onGrid l (hperm.mem_iff.mp hl)

end Builder
end TradingPlatform
