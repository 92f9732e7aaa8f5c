import TradingPlatform.Sender.RoundTrip
import TradingPlatform.Receiver.LocalBook
import TradingPlatform.Library.Latch
import Mathlib.Data.List.Pairwise

/-!
# `Sender.Multicast` — books on the wire

`send_orderbook_data` puts a book into two packets, bids first, and leaves out a side without levels. Both are
marked as the last packet, and neither says which book it belongs to. The receiver pairs whatever halves it
holds: it is a latch over the packets that arrive (`receive_simulates_latch`).
-/

namespace TradingPlatform
namespace Sender

open Market Rust Receiver

/-! ## Sending -/

/-- The exchanges there are addresses for. -/
def exchanges : List String := ["binance", "bybit", "okx", "deribit", "upbit", "coinbase", "bithumb"]

/-- What is sent, to the addresses of which exchange and for which kind of data. The symbol picks one of them, so
    what is sent for one symbol arrives through one socket. -/
structure Datagram where
  exchange : String
  dataType : DataType
  bytes    : List UInt8
deriving DecidableEq

/-- An exchange without addresses is an error. Its name is taken to be ASCII when it is put in lower case. -/
def sendPacket (packet : BinaryUdpPacket) : Option Datagram :=
  let exchange := toLowercase (PacketHeader.parseName packet.header.exchange)
  if exchange ∈ exchanges then
    if packet.header.packetType = 1 then some ⟨exchange, .trade, packet.toBytes⟩
    else if packet.header.packetType = 2 then some ⟨exchange, .orderBook, packet.toBytes⟩
    else none
  else none

/-- Nothing is sent for a side without levels; `none` when building or sending the packet fails. -/
def sendSide (orderbook : OrderBookData) (side : Bool) (now : Nat) : Option (List Datagram) :=
  if orderbook.levels side = [] then some []
  else ((BinaryUdpPacket.fromOrderbook orderbook side now).bind sendPacket).map ([·])

/-- A failure with the bids leaves out the asks as well. `clock` is the time at each packet. -/
def sendOrderbookData (orderbook : OrderBookData) (clock : Bool → Nat) : List Datagram :=
  match sendSide orderbook true (clock true) with
  | none      => []
  | some bids => bids ++ (sendSide orderbook false (clock false)).getD []

/-- A datagram that carries one side of this book. -/
structure OfSide (orderbook : OrderBookData) (side : Bool) (d : Datagram) : Prop where
  exchange : d.exchange = toLowercase (PacketHeader.parseName (PacketHeader.nameField orderbook.exchange))
  dataType : d.dataType = .orderBook
  packet   : SidePacket d.bytes (parseString (PacketHeader.nameField orderbook.symbol)) side true
    (orderbook.wireLevels side)

theorem sendSide_some {orderbook : OrderBookData} {side : Bool} {now : Nat} {ds : List Datagram}
    (h : sendSide orderbook side now = some ds) :
    ∃ d : Option Datagram, ds = d.toList ∧ ∀ x ∈ d, OfSide orderbook side x := by
  unfold sendSide at h
  split at h
  · obtain rfl := Option.some.inj h
    exact ⟨none, rfl, by intro x hx; cases hx⟩
  next hne =>
    obtain ⟨d, hd, rfl⟩ := Option.map_eq_some_iff.mp h
    obtain ⟨packet, hpacket, hsend⟩ := Option.bind_eq_some_iff.mp hd
    obtain ⟨hheader, hreads⟩ := readsSide_fromOrderbook hpacket
    refine ⟨some d, rfl, fun x hx => ?_⟩
    obtain rfl := Option.some.inj hx
    have htype : packet.header.packetType = 2 := by rw [← hheader, hreads.packetType]
    have hexchange : packet.header.exchange = PacketHeader.nameField orderbook.exchange := by
      rw [← hheader, hreads.exchange]
    unfold sendPacket at hsend
    simp only [htype, hexchange] at hsend
    split at hsend
    · obtain rfl := Option.some.inj hsend
      exact ⟨rfl, rfl, hreads.header_le, by rw [hreads.symbol], hreads.isBid, hreads.isLast, hreads.levels hne⟩
    · cases hsend

/-- **A book is at most two datagrams**, the bids before the asks. -/
theorem sendOrderbookData_eq (orderbook : OrderBookData) (clock : Bool → Nat) :
    ∃ bid ask : Option Datagram, sendOrderbookData orderbook clock = bid.toList ++ ask.toList ∧
      (∀ d ∈ bid, OfSide orderbook true d) ∧ ∀ d ∈ ask, OfSide orderbook false d := by
  have hnone : ∀ side, ∀ d ∈ (none : Option Datagram), OfSide orderbook side d := by
    intro side d hd
    cases hd
  unfold sendOrderbookData
  split
  · exact ⟨none, none, rfl, hnone true, hnone false⟩
  next bids hbids =>
    obtain ⟨bid, rfl, hbid⟩ := sendSide_some hbids
    cases hasks : sendSide orderbook false (clock false) with
    | none => exact ⟨bid, none, rfl, hbid, hnone false⟩
    | some asks =>
        obtain ⟨ask, rfl, hask⟩ := sendSide_some hasks
        exact ⟨bid, ask, rfl, hbid, hask⟩

/-! ## Broadcasts -/

/-- A book that is sent, and which of its packets arrive. -/
structure Broadcast where
  book    : OrderBookData
  clock   : Bool → Nat
  arrives : Bool → Bool

namespace Broadcast

def isBid (d : Datagram) : Bool := (parsePacketHeader d.bytes).isBid

/-- The packets of the book that arrive. -/
def arriving (b : Broadcast) : List Datagram :=
  (sendOrderbookData b.book b.clock).filter fun d => b.arrives (isBid d)

/-- Whether its bids arrive, and whether its asks do. -/
def pattern (b : Broadcast) : Bool × Bool := (b.arriving.any isBid, b.arriving.any fun d => !isBid d)

end Broadcast

theorem OfSide.isBid {orderbook : OrderBookData} {side : Bool} {d : Datagram} (h : OfSide orderbook side d) :
    Broadcast.isBid d = side := h.packet.isBid

theorem arriving_eq (b : Broadcast) :
    ∃ bid ask : Option Datagram, b.arriving = bid.toList ++ ask.toList ∧
      (∀ d ∈ bid, OfSide b.book true d) ∧ (∀ d ∈ ask, OfSide b.book false d) ∧
      b.pattern = (bid.isSome, ask.isSome) := by
  have hfilter : ∀ side (x : Option Datagram), (∀ d ∈ x, OfSide b.book side d) →
      ∃ y : Option Datagram, x.toList.filter (fun d => b.arrives (Broadcast.isBid d)) = y.toList ∧
        ∀ d ∈ y, OfSide b.book side d := by
    intro side x hx
    cases x with
    | none => exact ⟨none, rfl, hx⟩
    | some d =>
        cases harrives : b.arrives (Broadcast.isBid d) with
        | true => exact ⟨some d, by simp [harrives], hx⟩
        | false => exact ⟨none, by simp [harrives], by intro d' hd'; cases hd'⟩
  obtain ⟨bid₀, ask₀, hsent, hbid₀, hask₀⟩ := sendOrderbookData_eq b.book b.clock
  obtain ⟨bid, hbidEq, hbid⟩ := hfilter true bid₀ hbid₀
  obtain ⟨ask, haskEq, hask⟩ := hfilter false ask₀ hask₀
  have harriving : b.arriving = bid.toList ++ ask.toList := by
    unfold Broadcast.arriving
    rw [hsent, List.filter_append, hbidEq, haskEq]
  refine ⟨bid, ask, harriving, hbid, hask, ?_⟩
  unfold Broadcast.pattern
  rw [harriving]
  rcases bid with _ | d <;> rcases ask with _ | d'
  · rfl
  · simp [(hask d' rfl).isBid]
  · simp [(hbid d rfl).isBid]
  · simp [(hbid d rfl).isBid, (hask d' rfl).isBid]

/-! ## The receiver as a latch -/

/-- The packet handler on what comes in. -/
def receive (agg : OrderBookAggregator) (d : Datagram) : OrderBookAggregator × List Sent :=
  handlePacket agg d.bytes d.exchange d.dataType

/-- The updates among what is sent. -/
def updates (sent : List Sent) : List OrderBookUpdate :=
  sent.filterMap fun
    | .trade _          => none
    | .orderbook update => some update

/-- The two sides of an update. -/
def sides (update : OrderBookUpdate) : List PriceLevel × List PriceLevel := (update.bids, update.asks)

/-- The sides of a firing of the latch. -/
def firingSides (firing : Broadcast × Broadcast) : List PriceLevel × List PriceLevel :=
  (firing.1.book.wireLevels true, firing.2.book.wireLevels false)

/-- The entry of the aggregator that holds this half. -/
def partialBook : Bool × Broadcast → PartialOrderBook
  | (true, owner)  => ⟨some (owner.book.wireLevels true), none⟩
  | (false, owner) => ⟨none, some (owner.book.wireLevels false)⟩

section OneStream

/-- All books are those of one exchange and one symbol. -/
def OneStream (exchange symbol : String) (b : Broadcast) : Prop :=
  b.book.exchange = exchange ∧ b.book.symbol = symbol

variable {exchange symbol : String}

/-- The key their halves are kept under. -/
def streamKey (exchange symbol : String) : Exchange × String :=
  (parseExchange (toLowercase (PacketHeader.parseName (PacketHeader.nameField exchange))),
    parseString (PacketHeader.nameField symbol))

/-- The aggregator holds what the latch has pending. -/
def HoldsPending (exchange symbol : String) (agg : OrderBookAggregator) (pending : Option (Bool × Broadcast)) :
    Prop :=
  agg.partialBooks (streamKey exchange symbol) = pending.map partialBook

/-- **One packet.** The handler does what the latch does with this half. -/
theorem receive_simulates_latch {agg : OrderBookAggregator} {pending : Option (Bool × Broadcast)}
    (h : HoldsPending exchange symbol agg pending) {owner : Broadcast} {side : Bool} {d : Datagram}
    (howner : OneStream exchange symbol owner) (hd : OfSide owner.book side d) :
    HoldsPending exchange symbol (receive agg d).1 (Latch.step pending (side, owner)).1 ∧
      (updates (receive agg d).2).map sides = (Latch.step pending (side, owner)).2.map firingSides := by
  obtain ⟨rfl, rfl⟩ := howner
  obtain ⟨hexchange, htype, hlen, hsymbol, hbid, hlast, hlevels⟩ := hd
  unfold HoldsPending streamKey at h ⊢
  unfold receive handlePacket aggregate
  rw [htype, if_neg (Nat.not_lt.mpr hlen)]
  simp only [hlevels, hbid, hlast, hsymbol, hexchange, if_true]
  rcases pending with _ | ⟨side', owner'⟩
  · -- nothing is pending: the half waits
    cases side <;>
      simp_all [Latch.step, OrderBookAggregator.takeComplete, OrderBookAggregator.addBids,
        OrderBookAggregator.addAsks, OrderBookAggregator.entry, updates, partialBook]
  · cases side <;> cases side' <;>
      simp_all [Latch.step, OrderBookAggregator.takeComplete, OrderBookAggregator.addBids,
        OrderBookAggregator.addAsks, OrderBookAggregator.entry, updates, partialBook, sides, firingSides]

/-- **Whole runs.** The updates are the firings. -/
theorem receive_run {agg : OrderBookAggregator} {pending : Option (Bool × Broadcast)}
    (h : HoldsPending exchange symbol agg pending) {ds : List Datagram} {hs : List (Bool × Broadcast)}
    (hall : List.Forall₂ (fun d half => OneStream exchange symbol half.2 ∧ OfSide half.2.book half.1 d) ds hs) :
    (updates (Machine.run receive agg ds).2).map sides = (Machine.run Latch.step pending hs).2.map firingSides := by
  induction hall generalizing agg pending with
  | nil => rfl
  | @cons d half ds hs hd hrest ih =>
      obtain ⟨side, owner⟩ := half
      obtain ⟨hnext, hout⟩ := receive_simulates_latch h hd.1 hd.2
      have hsplit : updates ((receive agg d).2 ++ (Machine.run receive (receive agg d).1 ds).2)
          = updates (receive agg d).2 ++ updates (Machine.run receive (receive agg d).1 ds).2 :=
        List.filterMap_append
      rw [Machine.run_cons, Machine.run_cons, List.map_append, hsplit, List.map_append, hout, ih hnext]

/-! ## Pairing -/

def Broadcast.delivery (b : Broadcast) : Latch.Delivery Broadcast := (b, b.pattern)

/-- What arrives of the books are the halves their patterns say. -/
theorem arriving_halves {broadcasts : List Broadcast} (h : ∀ b ∈ broadcasts, OneStream exchange symbol b) :
    List.Forall₂ (fun d half => OneStream exchange symbol half.2 ∧ OfSide half.2.book half.1 d)
      (broadcasts.flatMap Broadcast.arriving) ((broadcasts.map Broadcast.delivery).flatMap Latch.halves) := by
  induction broadcasts with
  | nil => exact .nil
  | cons b broadcasts ih =>
      have hb : OneStream exchange symbol b := h b List.mem_cons_self
      obtain ⟨bid, ask, harriving, hbid, hask, hpattern⟩ := arriving_eq b
      rw [List.flatMap_cons, List.map_cons, List.flatMap_cons]
      refine List.rel_append ?_ (ih fun b' hb' => h b' (List.mem_cons_of_mem _ hb'))
      rw [harriving]
      unfold Broadcast.delivery Latch.halves
      rw [hpattern]
      refine List.rel_append ?_ ?_
      · rcases bid with _ | d
        · exact .nil
        · exact .cons ⟨hb, hbid d rfl⟩ .nil
      · rcases ask with _ | d
        · exact .nil
        · exact .cons ⟨hb, hask d rfl⟩ .nil

end OneStream

/-- The updates a fresh handler emits for what arrives of these books. -/
def emitted (broadcasts : List Broadcast) : List OrderBookUpdate :=
  updates (Machine.run receive .new (broadcasts.flatMap Broadcast.arriving)).2

/-- Both sides of every update come from one of the books. -/
def PairsOneBook (broadcasts : List Broadcast) : Prop :=
  ∀ update ∈ emitted broadcasts, ∃ b ∈ broadcasts,
    update.bids = b.book.wireLevels true ∧ update.asks = b.book.wireLevels false

/-- Leaving out the books of which nothing arrives: after one of which only the asks arrive come only such, and
    none right after one of which only the bids arrive. -/
def InStep (broadcasts : List Broadcast) : Prop :=
  ((broadcasts.map Broadcast.pattern).filter (· ≠ (false, false))).IsChain Latch.Follows

/-- No two of the books show the same levels on a side. -/
def ToldApart (broadcasts : List Broadcast) : Prop :=
  broadcasts.Pairwise fun b b' => ∀ side, b.book.wireLevels side = b'.book.wireLevels side →
    b.book.wireLevels side = []

theorem emitted_sides {exchange symbol : String} {broadcasts : List Broadcast}
    (h : ∀ b ∈ broadcasts, OneStream exchange symbol b) :
    (emitted broadcasts).map sides
      = (Machine.run Latch.step none ((broadcasts.map Broadcast.delivery).flatMap Latch.halves)).2.map firingSides :=
  have hnew : HoldsPending exchange symbol .new none := rfl
  receive_run hnew (arriving_halves h)

theorem patterns_delivery (broadcasts : List Broadcast) :
    Latch.patterns (broadcasts.map Broadcast.delivery)
      = (broadcasts.map Broadcast.pattern).filter (· ≠ (false, false)) := by
  unfold Latch.patterns
  rw [List.map_map]
  rfl

/-- A half that has arrived carries levels. -/
theorem wireLevels_ne_nil {broadcasts : List Broadcast} {side : Bool} {owner : Broadcast}
    (h : (side, owner) ∈ (broadcasts.map Broadcast.delivery).flatMap Latch.halves) :
    owner ∈ broadcasts ∧ owner.book.wireLevels side ≠ [] := by
  obtain ⟨delivery, hdelivery, hmem⟩ := List.mem_flatMap.mp h
  obtain ⟨b, hb, rfl⟩ := List.mem_map.mp hdelivery
  obtain ⟨bid, ask, -, hbid, hask, hpattern⟩ := arriving_eq b
  unfold Broadcast.delivery Latch.halves at hmem
  rw [hpattern] at hmem
  rcases List.mem_append.mp hmem with hmem | hmem
  · rcases bid with _ | d
    · cases hmem
    · cases List.mem_singleton.mp hmem
      exact ⟨hb, (parseOrderbookLevels_some (hbid d rfl).packet.levels).2⟩
  · rcases ask with _ | d
    · cases hmem
    · cases List.mem_singleton.mp hmem
      exact ⟨hb, (parseOrderbookLevels_some (hask d rfl).packet.levels).2⟩

/-- Told apart, two books that show the same levels on a side are one. -/
theorem ToldApart.eq {broadcasts : List Broadcast} (h : ToldApart broadcasts) {b b' : Broadcast}
    (hb : b ∈ broadcasts) (hb' : b' ∈ broadcasts) {side : Bool}
    (heq : b.book.wireLevels side = b'.book.wireLevels side) (hne : b.book.wireLevels side ≠ []) : b = b' := by
  by_contra hdiff
  have hsymm : Std.Symm fun b b' : Broadcast => ∀ side, b.book.wireLevels side = b'.book.wireLevels side →
      b.book.wireLevels side = [] := ⟨fun x y hxy side hyx => hyx.trans (hxy side hyx.symm)⟩
  exact hne (List.Pairwise.forall h hb hb' hdiff side heq)

/-- **When the receiver pairs sides of one book.** Whatever is lost of books of one exchange and symbol: if what
    arrives is in step, every update has both sides of one book. If it is not, some update mixes two books, which
    shows unless these look the same. -/
theorem pairs_one_book_iff {exchange symbol : String} {broadcasts : List Broadcast}
    (hstream : ∀ b ∈ broadcasts, OneStream exchange symbol b) :
    (InStep broadcasts → PairsOneBook broadcasts) ∧
    (ToldApart broadcasts → PairsOneBook broadcasts → InStep broadcasts) := by
  have hsides := emitted_sides hstream
  constructor
  · intro hstep update hupdate
    unfold InStep at hstep
    rw [← patterns_delivery] at hstep
    have hmem : sides update ∈ (emitted broadcasts).map sides := List.mem_map_of_mem hupdate
    rw [hsides] at hmem
    obtain ⟨⟨b, b'⟩, hfiring, heq⟩ := List.mem_map.mp hmem
    obtain rfl : b = b' := Latch.matched_of_chain hstep _ hfiring
    obtain ⟨harrived, -⟩ := Latch.halves_of_firing hfiring
    obtain ⟨hbids, hasks⟩ := Prod.mk.inj heq
    exact ⟨b, (wireLevels_ne_nil harrived).1, hbids.symm, hasks.symm⟩
  · intro hapart hpairs
    by_contra hstep
    unfold InStep at hstep
    rw [← patterns_delivery] at hstep
    obtain ⟨p, q, hsub, hfire⟩ := Latch.mismatch_of_not_chain hstep
    have howners : (broadcasts.map Broadcast.delivery).map Prod.fst = broadcasts := by
      rw [List.map_map]
      exact List.map_id _
    rw [howners] at hsub
    -- both halves of a firing come from one book, as nothing else looks like them
    have hone : ∀ x y, (x, y) ∈ (Machine.run Latch.step none
        ((broadcasts.map Broadcast.delivery).flatMap Latch.halves)).2 →
        x = y ∧ x.book.wireLevels true ≠ [] := by
      intro x y hfiring
      obtain ⟨hx, hy⟩ := Latch.halves_of_firing hfiring
      obtain ⟨hxmem, hxne⟩ := wireLevels_ne_nil hx
      obtain ⟨hymem, hyne⟩ := wireLevels_ne_nil hy
      have hmem := List.mem_map_of_mem (f := firingSides) hfiring
      rw [← hsides] at hmem
      obtain ⟨update, hupdate, heq⟩ := List.mem_map.mp hmem
      obtain ⟨b, hb, hbids, hasks⟩ := hpairs update hupdate
      obtain ⟨hxbids, hyasks⟩ := Prod.mk.inj heq
      have hxb : x = b := hapart.eq hxmem hb (hxbids.symm.trans hbids) hxne
      have hyb : y = b := hapart.eq hymem hb (hyasks.symm.trans hasks) hyne
      exact ⟨hxb.trans hyb.symm, hxne⟩
    have happart := List.Pairwise.sublist hsub hapart
    rw [List.pairwise_pair] at happart
    rcases hfire with hfire | hfire
    · obtain ⟨rfl, hne⟩ := hone p q hfire
      exact hne (happart true rfl)
    · obtain ⟨rfl, hne⟩ := hone q p hfire
      exact hne (happart true rfl)

/-! ## One lost packet -/

/-- A book of one bid and one ask. -/
def smallBook (bid ask : Int) : OrderBookData where
  exchange          := "Bybit"
  symbol            := "BTCUSDT"
  assetType         := "spot"
  bids              := [(bid, 1)]
  asks              := [(ask, 1)]
  pricePrecision    := 2
  quantityPrecision := 3
  timestamp         := 1700000000000
  timestampUnit     := .milliseconds

/-- Two books; of the first the asks are lost, of the second the bids. -/
def crossLoss : List Broadcast :=
  [⟨smallBook 10000 10001, fun _ => 0, fun side => side⟩, ⟨smallBook 20000 20001, fun _ => 0, fun side => !side⟩]

/-- The receiver emits the bids of the first with the asks of the second: a bid of 100 beside an ask of 200.01. -/
theorem crossLoss_mixes :
    (∀ b ∈ crossLoss, OneStream "Bybit" "BTCUSDT" b) ∧
    (emitted crossLoss).map sides = [([⟨100, 1 / 1000⟩], [⟨20001 / 100, 1 / 1000⟩])] ∧
    ¬ PairsOneBook crossLoss := by
  have hsides : (emitted crossLoss).map sides = [([⟨100, 1 / 1000⟩], [⟨20001 / 100, 1 / 1000⟩])] := by
    decide +kernel
  refine ⟨?_, hsides, fun h => ?_⟩
  · intro b hb
    simp only [crossLoss, List.mem_cons, List.not_mem_nil, or_false] at hb
    rcases hb with rfl | rfl <;> exact ⟨rfl, rfl⟩
  · obtain ⟨update, hupdate, hupdateSides⟩ := List.map_eq_singleton_iff.mp hsides
    obtain ⟨hbids, hasks⟩ := Prod.mk.inj hupdateSides
    obtain ⟨b, hb, hbBids, hbAsks⟩ := h update (by rw [hupdate]; exact List.mem_singleton_self _)
    rw [hbids] at hbBids
    rw [hasks] at hbAsks
    simp only [crossLoss, List.mem_cons, List.not_mem_nil, or_false] at hb
    rcases hb with rfl | rfl
    · exact absurd hbAsks (by decide +kernel)
    · exact absurd hbBids (by decide +kernel)

/-- Two books of which everything arrives. -/
def noLoss : List Broadcast :=
  [⟨smallBook 10000 10001, fun _ => 0, fun _ => true⟩, ⟨smallBook 20000 20001, fun _ => 0, fun _ => true⟩]

/-- Both are emitted as they were sent. -/
theorem noLoss_pairs : (emitted noLoss).length = 2 ∧ PairsOneBook noLoss := by
  refine ⟨by decide +kernel, (@pairs_one_book_iff "Bybit" "BTCUSDT" noLoss ?_).1 ?_⟩
  · intro b hb
    simp only [noLoss, List.mem_cons, List.not_mem_nil, or_false] at hb
    rcases hb with rfl | rfl <;> exact ⟨rfl, rfl⟩
  · have hpatterns : (noLoss.map Broadcast.pattern).filter (· ≠ (false, false)) = [(true, true), (true, true)] := by
      decide +kernel
    unfold InStep
    rw [hpatterns]
    exact .cons_cons (Latch.follows_both _) (.singleton _)

/-! ## What arrives of a book without loss -/

/-- There are addresses for its exchange. -/
def KnownExchange (orderbook : OrderBookData) : Prop :=
  toLowercase (PacketHeader.parseName (PacketHeader.nameField orderbook.exchange)) ∈ exchanges

instance (orderbook : OrderBookData) : Decidable (KnownExchange orderbook) := inferInstanceAs (Decidable (_ ∈ _))

theorem sendSide_scalable {orderbook : OrderBookData} {side : Bool} (hknown : KnownExchange orderbook)
    (h : orderbook.Scalable side) (hne : orderbook.levels side ≠ []) (now : Nat) :
    ∃ d, sendSide orderbook side now = some [d] ∧ OfSide orderbook side d := by
  obtain ⟨packet, hpacket⟩ := h.fromOrderbook now
  obtain ⟨hheader, hreads⟩ := readsSide_fromOrderbook hpacket
  have htype : packet.header.packetType = 2 := by rw [← hheader, hreads.packetType]
  have hexchange : packet.header.exchange = PacketHeader.nameField orderbook.exchange := by
    rw [← hheader, hreads.exchange]
  obtain ⟨d, hd⟩ : ∃ d, sendSide orderbook side now = some [d] := by
    unfold KnownExchange at hknown
    unfold sendSide sendPacket
    simp [hne, hpacket, htype, hexchange, hknown]
  obtain ⟨x, hx, hof⟩ := sendSide_some hd
  rcases x with _ | d'
  · cases hx
  · cases hx
    exact ⟨d, hd, hof d rfl⟩

/-- What the handler emits for the packets of one book, and its aggregator afterwards. -/
def receiveBook (agg : OrderBookAggregator) (orderbook : OrderBookData) (clock : Bool → Nat) :
    OrderBookAggregator × List Sent :=
  Machine.run receive agg (sendOrderbookData orderbook clock)

/-- **Seven levels a side survive.** A book with both sides, at a receiver that holds no half of its symbol: one
    update, with the first seven levels of each side. That is the whole book iff no side has more. -/
theorem first_levels_survive {orderbook : OrderBookData} (hknown : KnownExchange orderbook)
    (hscalable : ∀ side, orderbook.Scalable side) (hne : ∀ side, orderbook.levels side ≠ [])
    {agg : OrderBookAggregator} (hagg : agg.partialBooks (streamKey orderbook.exchange orderbook.symbol) = none)
    (clock : Bool → Nat) :
    (receiveBook agg orderbook clock).1.partialBooks (streamKey orderbook.exchange orderbook.symbol) = none ∧
    (updates (receiveBook agg orderbook clock).2).map sides
      = [((orderbook.shownLevels true).take 7, (orderbook.shownLevels false).take 7)] ∧
    ((updates (receiveBook agg orderbook clock).2).map sides
        = [(orderbook.shownLevels true, orderbook.shownLevels false)] ↔
      ∀ side, (orderbook.levels side).length ≤ 7) := by
  obtain ⟨bid, hbid, hbidOf⟩ := sendSide_scalable hknown (hscalable true) (hne true) (clock true)
  obtain ⟨ask, hask, haskOf⟩ := sendSide_scalable hknown (hscalable false) (hne false) (clock false)
  have hsent : sendOrderbookData orderbook clock = [bid, ask] := by
    unfold sendOrderbookData
    rw [hbid, hask]
    rfl
  -- the bids wait at the latch, the asks complete them
  have howner : OneStream orderbook.exchange orderbook.symbol ⟨orderbook, clock, fun _ => true⟩ := ⟨rfl, rfl⟩
  have hpending : HoldsPending orderbook.exchange orderbook.symbol agg none := hagg
  obtain ⟨hheld, -⟩ := receive_simulates_latch hpending howner hbidOf
  obtain ⟨hdone, -⟩ := receive_simulates_latch hheld howner haskOf
  have hsides : (updates (receiveBook agg orderbook clock).2).map sides
      = [((orderbook.shownLevels true).take 7, (orderbook.shownLevels false).take 7)] := by
    have hall : List.Forall₂ (fun d half => OneStream orderbook.exchange orderbook.symbol half.2 ∧
        OfSide half.2.book half.1 d) [bid, ask]
        [(true, (⟨orderbook, clock, fun _ => true⟩ : Broadcast)), (false, ⟨orderbook, clock, fun _ => true⟩)] :=
      .cons ⟨howner, hbidOf⟩ (.cons ⟨howner, haskOf⟩ .nil)
    unfold receiveBook
    rw [hsent, receive_run hpending hall, ← (hscalable true).wireLevels, ← (hscalable false).wireLevels]
    rfl
  refine ⟨?_, hsides, ?_⟩
  · unfold receiveBook
    rw [hsent]
    exact hdone
  · have hwhole : ∀ side, (orderbook.shownLevels side).take 7 = orderbook.shownLevels side ↔
        (orderbook.levels side).length ≤ 7 := by
      intro side
      have hlength : (orderbook.shownLevels side).length = (orderbook.levels side).length := List.length_map ..
      rw [List.take_eq_self_iff, hlength]
    rw [hsides, List.cons.injEq, Prod.mk.injEq, hwhole, hwhole, Bool.forall_bool]
    simp [and_comm]

/-- Every level of the book is in an update. -/
def LevelsSurvive (orderbook : OrderBookData) (clock : Bool → Nat) : Prop :=
  ∀ side, ∀ level ∈ orderbook.shownLevels side, ∃ update ∈ updates (receiveBook .new orderbook clock).2,
    level ∈ if side then update.bids else update.asks

/-- Eight bids and one ask. -/
def deepBook : OrderBookData :=
  { smallBook 10000 10001 with bids := (List.range 8).map fun i => (10000 - i, 1) }

/-- The eighth bid, at 99.93, is in no update; nor is anything of a book without asks. -/
theorem eighth_level_lost :
    (∀ side, deepBook.Scalable side) ∧ (⟨9993 / 100, 1 / 1000⟩ : PriceLevel) ∈ deepBook.shownLevels true ∧
    (∀ update ∈ updates (receiveBook .new deepBook fun _ => 0).2, ⟨9993 / 100, 1 / 1000⟩ ∉ update.bids) ∧
    (¬ LevelsSurvive deepBook fun _ => 0) ∧
    updates (receiveBook .new { smallBook 10000 10001 with asks := [] } fun _ => 0).2 = [] := by
  have hlevel : (⟨9993 / 100, 1 / 1000⟩ : PriceLevel) ∈ deepBook.shownLevels true := by decide +kernel
  have hlost : ∀ update ∈ updates (receiveBook .new deepBook fun _ => 0).2, ⟨9993 / 100, 1 / 1000⟩ ∉ update.bids := by
    decide +kernel
  refine ⟨?_, hlevel, hlost, fun h => ?_, by decide +kernel⟩
  · intro side
    cases side <;> exact ⟨by decide +kernel, by decide +kernel, by decide +kernel⟩
  · obtain ⟨update, hupdate, hmem⟩ := h true _ hlevel
    exact hlost update hupdate hmem

/-- A book of two levels comes back whole. -/
theorem smallBook_survives :
    (updates (receiveBook .new (smallBook 10000 10001) fun _ => 0).2).map sides
      = [((smallBook 10000 10001).shownLevels true, (smallBook 10000 10001).shownLevels false)] := by
  refine ((@first_levels_survive (smallBook 10000 10001) (by decide +kernel) ?_ ?_ .new rfl fun _ => 0).2.2).mpr ?_
  · intro side
    cases side <;> exact ⟨by decide +kernel, by decide +kernel, by decide +kernel⟩
  · intro side
    cases side <;> decide
  · intro side
    cases side <;> decide

end Sender
end TradingPlatform
