import TradingPlatform.Maker.Cleanup
import TradingPlatform.Rust.Binary64

/-!
# `Maker.Positions` — which positions are read, and closed

The closure that reads an entry names the entry's symbol `symbol` too, so its filter compares that with itself and
lets every entry pass. Its numbers may be the names of the infinities and of NaN, which is not zero. The positions are
those of the symbol exactly if the answer holds no open position of another one and no number that an `f64` cannot
hold, and only then do the close orders leave the other symbols alone (`positions_exact_iff`).
-/

namespace TradingPlatform
namespace Maker

open Rust Json

/-! ## Reading -/

/-- The closure of `get_positions`, with the symbol that was asked for out of sight. -/
def readPositionOf (_symbol : String) (pos : Value) : Option Position := do
  let symbol ← (← pos.get? "symbol").asStr?
  if symbol ≠ "" ∧ symbol ≠ symbol then none
  else do
    let positionAmt ← f64FromStr (← (← pos.get? "positionAmt").asStr?)
    if positionAmt = 0 then none
    else do
      let entryPrice ← f64FromStr (← (← pos.get? "entryPrice").asStr?)
      let unrealizedProfit ← f64FromStr (← (← pos.get? "unRealizedProfit").asStr?)
      return {
        symbol
        amount := positionAmt.abs
        entryPrice
        unrealizedProfit
        side   := if 0 < positionAmt then "LONG" else "SHORT" }

/-- `get_positions` on an answer of the endpoint. -/
def getPositionsOf (symbol : String) (answer : Answer) : Except Error (List Position) :=
  (jsonArray answer).map fun entries => entries.filterMap (readPositionOf symbol)

/-- The orders of `close_all_positions`. -/
def closeOrdersOf (symbol : String) (answer : Answer) : List OrderRequest :=
  match getPositionsOf symbol answer with
  | .ok positions => positions.map closeRequest
  | .error _      => []

/-! ## What should be read -/

/-- The numeral in a field of an entry. -/
def numeral (entry : Value) (key : String) : Option ℚ := ((entry.get? key).bind Value.asStr?).bind parseF64

/-- An open position as an entry states it. -/
structure OpenEntry where
  amount : ℚ
  price  : ℚ
  profit : ℚ

/-- The entry states an open position of the symbol. -/
structure States (symbol : String) (entry : Value) (e : OpenEntry) : Prop where
  symbol  : entry.get? "symbol" = some (.string symbol)
  amount  : numeral entry "positionAmt" = some e.amount
  price   : numeral entry "entryPrice" = some e.price
  profit  : numeral entry "unRealizedProfit" = some e.profit
  nonzero : e.amount ≠ 0

/-- The position in `f64`s. -/
def OpenEntry.position (symbol : String) (e : OpenEntry) : Position where
  symbol           := symbol
  amount           := .finite (binary64.round |e.amount|)
  entryPrice       := .finite (binary64.round e.price)
  unrealizedProfit := .finite (binary64.round e.profit)
  side             := if 0 < e.amount then "LONG" else "SHORT"

/-- The open positions of the symbol, in the order of the entries. -/
inductive OpenEntries (symbol : String) : List Value → List OpenEntry → Prop
  | nil : OpenEntries symbol [] []
  | stated {entry : Value} {e : OpenEntry} {entries : List Value} {es : List OpenEntry} :
      States symbol entry e → OpenEntries symbol entries es → OpenEntries symbol (entry :: entries) (e :: es)
  | skipped {entry : Value} {entries : List Value} {es : List OpenEntry} :
      (∀ e, ¬ States symbol entry e) → OpenEntries symbol entries es → OpenEntries symbol (entry :: entries) es

/-- What `get_positions` returns are the open positions of the symbol, and the close orders offset them one by one. -/
structure ExactPositions (symbol : String) (entries : List Value) : Prop where
  read   : ∃ es, OpenEntries symbol entries es ∧
    getPositionsOf symbol (some (.array entries)) = .ok (es.map (OpenEntry.position symbol)) ∧
    List.Forall₂ (fun (e : OpenEntry) order => F64.finite (binary64.round e.amount) + signedQuantity order = .finite 0)
      es (closeOrdersOf symbol (some (.array entries)))
  others : ∀ order ∈ closeOrdersOf symbol (some (.array entries)), order.symbol = symbol

/-- What `parse` makes of a field. -/
def parsedField (entry : Value) (key : String) : Option F64 := ((entry.get? key).bind Value.asStr?).bind f64FromStr

/-- The fields of an entry can be parsed. -/
structure Parses (symbol : String) (entry : Value) (amount price profit : F64) : Prop where
  symbol : entry.get? "symbol" = some (.string symbol)
  amount : parsedField entry "positionAmt" = some amount
  price  : parsedField entry "entryPrice" = some price
  profit : parsedField entry "unRealizedProfit" = some profit

/-- No open position of another symbol, and no number that an `f64` cannot hold: every entry that can be parsed, unless
    its amount is zero, is of the symbol and in finite numbers, and no amount of the symbol is too small. -/
structure OnlyOf (symbol : String) (entries : List Value) : Prop where
  same  : ∀ entry ∈ entries, ∀ other amount price profit, Parses other entry amount price profit → amount ≠ 0 →
    other = symbol ∧ amount.isFinite ∧ price.isFinite ∧ profit.isFinite
  large : ∀ entry ∈ entries, ∀ e, States symbol entry e → binary64.round e.amount ≠ 0

/-! ## What is read -/

theorem asStr?_eq_some_iff {v : Option Value} {text : String} :
    v.bind Value.asStr? = some text ↔ v = some (.string text) := by
  constructor
  · intro h
    obtain ⟨value, rfl, htext⟩ := Option.bind_eq_some_iff.mp h
    cases value with
    | string s => exact congrArg (some ∘ Value.string) (Option.some.inj htext)
    | _ => cases htext
  · rintro rfl
    rfl

section

variable {symbol other : String} {entry : Value} {entries : List Value} {amount price profit : F64}

/-- The position that is read from the parsed fields. -/
def parsedPosition (symbol : String) (amount price profit : F64) : Position where
  symbol           := symbol
  amount           := amount.abs
  entryPrice       := price
  unrealizedProfit := profit
  side             := if 0 < amount then "LONG" else "SHORT"

/-- An entry is read field by field. The filter filters nothing. -/
theorem readPositionOf_eq (symbol : String) (entry : Value) :
    readPositionOf symbol entry = ((entry.get? "symbol").bind Value.asStr?).bind fun symbol =>
      (parsedField entry "positionAmt").bind fun amount =>
        if amount = 0 then none
        else (parsedField entry "entryPrice").bind fun price =>
          (parsedField entry "unRealizedProfit").bind fun profit =>
            some (parsedPosition symbol amount price profit) := by
  unfold readPositionOf parsedField
  simp only [ne_eq, not_true_eq_false, and_false, if_false, Option.bind_eq_bind, Option.bind_assoc]
  rfl

/-- **An entry is read** if it can be parsed and its amount is not zero, whatever its symbol. -/
theorem readPositionOf_eq_some_iff {position : Position} :
    readPositionOf symbol entry = some position ↔
      ∃ other amount price profit, Parses other entry amount price profit ∧ amount ≠ 0 ∧
        position = parsedPosition other amount price profit := by
  rw [readPositionOf_eq]
  constructor
  · intro h
    obtain ⟨other, hsymbol, h⟩ := Option.bind_eq_some_iff.mp h
    obtain ⟨amount, hamount, h⟩ := Option.bind_eq_some_iff.mp h
    split at h
    · cases h
    next hnonzero =>
      obtain ⟨price, hprice, h⟩ := Option.bind_eq_some_iff.mp h
      obtain ⟨profit, hprofit, h⟩ := Option.bind_eq_some_iff.mp h
      cases h
      exact ⟨other, amount, price, profit, ⟨asStr?_eq_some_iff.mp hsymbol, hamount, hprice, hprofit⟩, hnonzero, rfl⟩
  · rintro ⟨other, amount, price, profit, h, hnonzero, rfl⟩
    rw [h.symbol, Option.bind_some, Value.asStr?, Option.bind_some, h.amount, Option.bind_some, if_neg hnonzero,
      h.price, Option.bind_some, h.profit, Option.bind_some]

/-! ### Numerals -/

/-- A numeral is parsed to its rounding. -/
theorem parsedField_of_numeral {key : String} {x : ℚ} (h : numeral entry key = some x) :
    parsedField entry key = some (.ofRat x) := by
  obtain ⟨text, htext, hx⟩ := Option.bind_eq_some_iff.mp h
  unfold parsedField
  rw [htext, Option.bind_some, f64FromStr_of_numeral hx]

/-- Finite numbers are parsed from numerals only. -/
theorem numeral_of_parsedField {key : String} {value : F64} (h : parsedField entry key = some value)
    (hfinite : value.isFinite) : ∃ x, numeral entry key = some x ∧ value = .finite (binary64.round x) := by
  obtain ⟨text, htext, hvalue⟩ := Option.bind_eq_some_iff.mp h
  obtain ⟨x, hx, hround⟩ := numeral_of_f64FromStr hvalue hfinite
  refine ⟨x, ?_, hround⟩
  unfold numeral
  rw [htext, Option.bind_some, hx]

/-- What an entry states can be parsed. -/
theorem States.parses {e : OpenEntry} (h : States symbol entry e) :
    Parses symbol entry (.ofRat e.amount) (.ofRat e.price) (.ofRat e.profit) :=
  ⟨h.symbol, parsedField_of_numeral h.amount, parsedField_of_numeral h.price, parsedField_of_numeral h.profit⟩

/-- What can be parsed, to an amount and finite numbers, is stated. -/
theorem Parses.states (h : Parses symbol entry amount price profit) (hnonzero : amount ≠ 0)
    (hfinite : amount.isFinite ∧ price.isFinite ∧ profit.isFinite) : ∃ e, States symbol entry e := by
  obtain ⟨x, hx, hamount⟩ := numeral_of_parsedField h.amount hfinite.1
  obtain ⟨y, hy, -⟩ := numeral_of_parsedField h.price hfinite.2.1
  obtain ⟨z, hz, -⟩ := numeral_of_parsedField h.profit hfinite.2.2
  refine ⟨⟨x, y, z⟩, h.symbol, hx, hy, hz, ?_⟩
  rintro rfl
  exact hnonzero (hamount.trans (congrArg F64.finite Rounding.Format.round_zero))

/-- **A stated position** whose numbers are finite is read as what it states. -/
theorem parsedPosition_ofRat {e : OpenEntry} (hnonzero : binary64.round e.amount ≠ 0)
    (hfinite : (F64.ofRat e.amount).isFinite ∧ (F64.ofRat e.price).isFinite ∧ (F64.ofRat e.profit).isFinite) :
    parsedPosition symbol (.ofRat e.amount) (.ofRat e.price) (.ofRat e.profit) = e.position symbol := by
  obtain ⟨hamount, hprice, hprofit⟩ := hfinite
  rw [F64.ofRat_of_isFinite hamount, F64.ofRat_of_isFinite hprice, F64.ofRat_of_isFinite hprofit]
  have hside : 0 < F64.finite (binary64.round e.amount) ↔ 0 < e.amount :=
    (F64.finite_lt 0 _).trans (Rounding.Format.round_pos_iff hnonzero)
  unfold parsedPosition OpenEntry.position
  rw [F64.finite_abs, Rounding.Format.abs_round]
  simp only [hside]

/-! ### The entries -/

theorem exists_openEntries (symbol : String) (entries : List Value) : ∃ es, OpenEntries symbol entries es := by
  induction entries with
  | nil => exact ⟨[], .nil⟩
  | cons entry entries ih =>
      obtain ⟨es, hes⟩ := ih
      by_cases hstates : ∃ e, States symbol entry e
      · obtain ⟨e, he⟩ := hstates
        exact ⟨e :: es, .stated he hes⟩
      · exact ⟨es, .skipped (fun e he => hstates ⟨e, he⟩) hes⟩

theorem OpenEntries.exists_of_mem {es : List OpenEntry} (h : OpenEntries symbol entries es) {e : OpenEntry}
    (he : e ∈ es) : ∃ entry ∈ entries, States symbol entry e := by
  induction h with
  | nil => cases he
  | @stated entry _ _ _ hstates _ ih =>
      rcases List.mem_cons.mp he with rfl | hmem
      · exact ⟨entry, List.mem_cons_self, hstates⟩
      · obtain ⟨entry', hmem', hstates'⟩ := ih hmem
        exact ⟨entry', List.mem_cons_of_mem _ hmem', hstates'⟩
  | skipped _ _ ih =>
      obtain ⟨entry', hmem', hstates'⟩ := ih he
      exact ⟨entry', List.mem_cons_of_mem _ hmem', hstates'⟩

/-- If only stated entries are read, as many are read as are stated only if all of these are. -/
theorem OpenEntries.length_filterMap {β : Type} {read : Value → Option β} {es : List OpenEntry}
    (h : OpenEntries symbol entries es)
    (hstated : ∀ entry ∈ entries, (read entry).isSome → ∃ e, States symbol entry e) :
    (entries.filterMap read).length ≤ es.length ∧
      ((entries.filterMap read).length = es.length →
        ∀ entry ∈ entries, ∀ e, States symbol entry e → (read entry).isSome) := by
  induction h with
  | nil => exact ⟨Nat.le_refl _, fun _ entry hentry => absurd hentry List.not_mem_nil⟩
  | @stated entry e entries es hstates _ ih =>
      obtain ⟨hle, hall⟩ := ih fun entry' hmem => hstated entry' (List.mem_cons_of_mem _ hmem)
      rw [List.length_cons]
      cases hread : read entry with
      | none =>
          rw [List.filterMap_cons_none hread]
          exact ⟨Nat.le_succ_of_le hle, fun hlength => by omega⟩
      | some position =>
          rw [List.filterMap_cons_some hread, List.length_cons]
          refine ⟨Nat.succ_le_succ hle, fun hlength => ?_⟩
          intro entry' hmem e' hstates'
          rcases List.mem_cons.mp hmem with rfl | hmem
          · rw [hread]
            rfl
          · exact hall (Nat.succ.inj hlength) entry' hmem e' hstates'
  | @skipped entry entries es hskipped _ ih =>
      obtain ⟨hle, hall⟩ := ih fun entry' hmem => hstated entry' (List.mem_cons_of_mem _ hmem)
      cases hread : read entry with
      | some position =>
          obtain ⟨e, he⟩ := hstated entry List.mem_cons_self (by rw [hread]; rfl)
          exact absurd he (hskipped e)
      | none =>
          rw [List.filterMap_cons_none hread]
          refine ⟨hle, fun hlength entry' hmem e' hstates' => ?_⟩
          rcases List.mem_cons.mp hmem with rfl | hmem
          · exact absurd hstates' (hskipped e')
          · exact hall hlength entry' hmem e' hstates'

/-- Under the condition, what is read are the open positions of the symbol. -/
theorem filterMap_readPositionOf {es : List OpenEntry} (h : OpenEntries symbol entries es)
    (honly : OnlyOf symbol entries) :
    entries.filterMap (readPositionOf symbol) = es.map (OpenEntry.position symbol) := by
  induction h with
  | nil => rfl
  | @stated entry e entries es hstates _ ih =>
      have hnonzero := honly.large entry List.mem_cons_self e hstates
      have hfinite := (honly.same entry List.mem_cons_self _ _ _ _ hstates.parses (F64.ofRat_ne_zero hnonzero)).2
      have hread : readPositionOf symbol entry = some (e.position symbol) :=
        readPositionOf_eq_some_iff.mpr ⟨symbol, _, _, _, hstates.parses, F64.ofRat_ne_zero hnonzero,
          (parsedPosition_ofRat hnonzero hfinite).symm⟩
      rw [List.filterMap_cons_some hread, List.map_cons, ih ⟨fun entry' hmem => honly.same entry'
        (List.mem_cons_of_mem _ hmem), fun entry' hmem => honly.large entry' (List.mem_cons_of_mem _ hmem)⟩]
  | @skipped entry entries es hskipped _ ih =>
      have hread : readPositionOf symbol entry = none := by
        rw [Option.eq_none_iff_forall_ne_some]
        intro position hposition
        obtain ⟨other, amount, price, profit, hparses, hnonzero, _⟩ := readPositionOf_eq_some_iff.mp hposition
        -- it would be a position of the symbol itself
        obtain ⟨rfl, hfinite⟩ := honly.same entry List.mem_cons_self other amount price profit hparses hnonzero
        obtain ⟨e, he⟩ := hparses.states hnonzero hfinite
        exact hskipped e he
      rw [List.filterMap_cons_none hread, ih ⟨fun entry' hmem => honly.same entry' (List.mem_cons_of_mem _ hmem),
        fun entry' hmem => honly.large entry' (List.mem_cons_of_mem _ hmem)⟩]

theorem getPositionsOf_array (symbol : String) (entries : List Value) :
    getPositionsOf symbol (some (.array entries)) = .ok (entries.filterMap (readPositionOf symbol)) := rfl

theorem closeOrdersOf_array (symbol : String) (entries : List Value) :
    closeOrdersOf symbol (some (.array entries)) = (entries.filterMap (readPositionOf symbol)).map closeRequest := by
  rw [closeOrdersOf, getPositionsOf_array]

/-- What is read as a position of finite numbers was parsed to them. -/
theorem isFinite_of_parsedPosition {e : OpenEntry}
    (h : parsedPosition other amount price profit = e.position symbol) :
    other = symbol ∧ amount.isFinite ∧ price.isFinite ∧ profit.isFinite := by
  have hamount : amount.abs = .finite (binary64.round |e.amount|) := congrArg Position.amount h
  have hprice : price = .finite (binary64.round e.price) := congrArg Position.entryPrice h
  have hprofit : profit = .finite (binary64.round e.profit) := congrArg Position.unrealizedProfit h
  refine ⟨congrArg Position.symbol h, ?_, hprice ▸ rfl, hprofit ▸ rfl⟩
  cases amount with
  | finite x => rfl
  | infinity s => cases hamount
  | nan => cases hamount

/-- The close order of a position that is read offsets it. -/
theorem closeRequest_position_offsets {e : OpenEntry} (hnonzero : binary64.round e.amount ≠ 0) :
    F64.finite (binary64.round e.amount) + signedQuantity (closeRequest (e.position symbol)) = .finite 0 := by
  apply closeRequest_offsets
  · exact congrArg F64.finite (Rounding.Format.abs_round e.amount).symm
  · simp only [OpenEntry.position, Rounding.Format.round_pos_iff hnonzero]

end

/-- **Exactly the symbol's open positions are read and closed** if and only if the answer holds no open position of
    another symbol and no number that an `f64` cannot hold. -/
theorem positions_exact_iff (symbol : String) (entries : List Value) :
    ExactPositions symbol entries ↔ OnlyOf symbol entries := by
  constructor
  · rintro ⟨⟨es, hes, hread, -⟩, -⟩
    rw [getPositionsOf_array] at hread
    have hread := Except.ok.inj hread
    have hsame : ∀ entry ∈ entries, ∀ other amount price profit, Parses other entry amount price profit →
        amount ≠ 0 → other = symbol ∧ amount.isFinite ∧ price.isFinite ∧ profit.isFinite := by
      intro entry hentry other amount price profit hparses hnonzero
      have hmem : parsedPosition other amount price profit ∈ entries.filterMap (readPositionOf symbol) :=
        List.mem_filterMap.mpr ⟨entry, hentry,
          readPositionOf_eq_some_iff.mpr ⟨other, amount, price, profit, hparses, hnonzero, rfl⟩⟩
      rw [hread] at hmem
      obtain ⟨e, -, he⟩ := List.mem_map.mp hmem
      exact isFinite_of_parsedPosition he.symm
    refine ⟨hsame, fun entry hentry e hstates hzero => ?_⟩
    -- as many are read as are stated, so this one is
    have hstated : ∀ entry ∈ entries, (readPositionOf symbol entry).isSome → ∃ e, States symbol entry e := by
      intro entry hentry hsome
      obtain ⟨position, hposition⟩ := Option.isSome_iff_exists.mp hsome
      obtain ⟨other, amount, price, profit, hparses, hnonzero, -⟩ := readPositionOf_eq_some_iff.mp hposition
      obtain ⟨rfl, hfinite⟩ := hsame entry hentry other amount price profit hparses hnonzero
      exact hparses.states hnonzero hfinite
    have hlength := (hes.length_filterMap hstated).2 (by rw [hread, List.length_map])
    obtain ⟨position, hposition⟩ := Option.isSome_iff_exists.mp (hlength entry hentry e hstates)
    obtain ⟨other, amount, price, profit, hparses, hnonzero, -⟩ := readPositionOf_eq_some_iff.mp hposition
    have hamount := Option.some.inj (hparses.amount.symm.trans hstates.parses.amount)
    exact hnonzero (hamount.trans (F64.ofRat_of_round_zero hzero))
  · intro honly
    obtain ⟨es, hes⟩ := exists_openEntries symbol entries
    have hread := filterMap_readPositionOf hes honly
    constructor
    · refine ⟨es, hes, ?_, ?_⟩
      · rw [getPositionsOf_array, hread]
      · rw [closeOrdersOf_array, hread, List.map_map, List.forall₂_map_right_iff, List.forall₂_same]
        intro e he
        obtain ⟨entry, hentry, hstates⟩ := hes.exists_of_mem he
        exact closeRequest_position_offsets (honly.large entry hentry e hstates)
    · rw [closeOrdersOf_array, hread, List.map_map]
      intro order horder
      obtain ⟨e, _, rfl⟩ := List.mem_map.mp horder
      rfl

/-- An entry with an amount. -/
def riskEntry (symbol amount : String) : Value :=
  .object [("symbol", .string symbol), ("positionAmt", .string amount), ("entryPrice", .string "95000.0"),
    ("unRealizedProfit", .string "0.00")]

/-- Asked for one symbol and answered for two: the position of the other is returned, and sold. -/
theorem foreign_position_closed :
    closeOrdersOf "BTCUSDT" (some (.array [riskEntry "BTCUSDT" "-0.5", riskEntry "ETHUSDT" "2"])) =
      [marketOrder "BTCUSDT" .buy (.finite (1 / 2)), marketOrder "ETHUSDT" .sell 2] ∧
    ¬ ExactPositions "BTCUSDT" [riskEntry "BTCUSDT" "-0.5", riskEntry "ETHUSDT" "2"] := by
  have horders : closeOrdersOf "BTCUSDT" (some (.array [riskEntry "BTCUSDT" "-0.5", riskEntry "ETHUSDT" "2"])) =
      [marketOrder "BTCUSDT" .buy (.finite (1 / 2)), marketOrder "ETHUSDT" .sell 2] := by decide +kernel
  refine ⟨horders, fun h => ?_⟩
  have hsent : marketOrder "ETHUSDT" .sell 2 ∈
      closeOrdersOf "BTCUSDT" (some (.array [riskEntry "BTCUSDT" "-0.5", riskEntry "ETHUSDT" "2"])) := by
    rw [horders]
    exact List.mem_cons_of_mem _ List.mem_cons_self
  have hsymbol := h.others _ hsent
  exact absurd hsymbol (by decide)

end Maker
end TradingPlatform
