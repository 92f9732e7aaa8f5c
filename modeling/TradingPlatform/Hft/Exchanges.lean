import TradingPlatform.Hft.Processor
import TradingPlatform.Hft.Entries
import TradingPlatform.Library.Machine

/-!
# `Hft.Exchanges` — the exchanges that share one processor

Every exchange pushes into a ring, some of them into the same one, and the book thread works the rings off in
any order. The symbol table, the books and their last ids are shared: an update of one exchange for a symbol
changes the book that another exchange's updates for a symbol of that name are applied to.

* `processRingBatched_eq` — a batch is a run of pops, applied one after the other;
* `exchanges_isolated` — what an exchange's updates do is a function of these updates alone, as long as no
  other exchange pushes into its ring or brings news to the book, and its ring always has room;
* `bybit_overtaken` — one update of another exchange under the same symbol is enough to lose it.
-/

namespace TradingPlatform
namespace Hft

open Market

/-! ## A batch -/

namespace HFTOrderBookProcessor

/-- Updates to the books, one after the other. -/
def applyAll (orderbooks : Nat → FastOrderBook) (updates : List FastUpdate) : Nat → FastOrderBook :=
  updates.foldl (fun books update =>
    Function.update books update.symbolId ((books update.symbolId).applyUpdate update)) orderbooks

/-- The updates the next call takes out of the ring. -/
def taken (p : HFTOrderBookProcessor) (ring : RingId) (batch : List (Option FastUpdate)) : List FastUpdate :=
  ((p.rings ring).popMany batch.length).2

/-- The id of every update a conversion makes is in range. -/
def SymbolInRange (update : FastUpdate) : Prop := update.symbolId < maxSymbols

/-- With all ids in range the batch is filled without holes. -/
theorem collectBatch_eq {ring : RingBuffer} (hring : ring.Slots SymbolInRange) (slots : List (Option FastUpdate)) :
    (collectBatch ring slots).1 = (ring.popMany slots.length).1 ∧
    ((collectBatch ring slots).2.1.take (collectBatch ring slots).2.2).filterMap id
      = (ring.popMany slots.length).2 ∧
    (collectBatch ring slots).2.1.length = slots.length := by
  induction slots generalizing ring with
  | nil => exact ⟨rfl, rfl, rfl⟩
  | cons slot slots ih =>
      obtain ⟨hpop, hpopped⟩ := hring.pop
      unfold collectBatch RingBuffer.popMany
      rw [List.length_cons]
      cases hp : ring.pop with
      | mk ring' popped =>
          rw [hp] at hpop hpopped
          cases popped with
          | none => exact ⟨rfl, rfl, rfl⟩
          | some update =>
              obtain ⟨hrest, htaken, hlength⟩ := ih hpop
              have hid : update.symbolId < maxSymbols := hpopped update rfl
              simp only [if_pos hid, List.take_succ_cons]
              refine ⟨hrest, ?_, ?_⟩
              · rw [← htaken]
                rfl
              · rw [List.length_cons, hlength]

/-- **A batch is a run of pops**, applied one after the other. -/
theorem processRingBatched_eq {p : HFTOrderBookProcessor} {batch : List (Option FastUpdate)}
    (h : p.Holding SymbolInRange batch) (ring : RingId) :
    (p.processRingBatched ring batch).1.rings
      = Function.update p.rings ring ((p.rings ring).popMany batch.length).1 ∧
    (p.processRingBatched ring batch).1.orderbooks = applyAll p.orderbooks (p.taken ring batch) ∧
    (p.processRingBatched ring batch).2.1.length = batch.length := by
  obtain ⟨hring, htaken, hlength⟩ := collectBatch_eq (h.rings ring) batch
  refine ⟨?_, ?_, hlength⟩
  · unfold processRingBatched
    rw [hring]
  · unfold processRingBatched applyBatch taken applyAll
    simp only []
    rw [htaken]

/-- One book sees the updates of its own id only. -/
theorem applyAll_book (orderbooks : Nat → FastOrderBook) (updates : List FastUpdate) (id : Nat) :
    applyAll orderbooks updates id = (orderbooks id).applyUpdates (updates.filter (·.symbolId = id)) := by
  induction updates generalizing orderbooks with
  | nil => rfl
  | cons update updates ih =>
      show applyAll (Function.update orderbooks update.symbolId _) updates id = _
      rw [ih]
      by_cases hid : update.symbolId = id
      · subst hid
        rw [Function.update_self, List.filter_cons_of_pos (by simp)]
        rfl
      · rw [Function.update_of_ne (Ne.symm hid), List.filter_cons_of_neg (by simpa using hid)]

/-! ## Runs -/

/-- The processor with the batch array of its book thread. -/
structure Venues where
  processor : HFTOrderBookProcessor
  batch     : List (Option FastUpdate)

def Venues.new : Venues := ⟨.new, List.replicate batchSize none⟩

inductive Call where
  | registerSymbol (symbol : String) (tickSize : ℚ)
  | processUpdate (update : OrderBookUpdate)
  | processRing (ring : RingId)

/-- What becomes of an update: refused before it is converted, accepted by the ring or not, and applied to the
    book as news or skipped. -/
inductive Outcome where
  | unconverted (exchange : Exchange)
  | pushed (exchange : Exchange) (update : FastUpdate) (accepted : Bool)
  | applied (ring : RingId) (update : FastUpdate) (fresh : Bool)

def Outcome.isFresh : Outcome → Bool
  | .applied _ _ fresh => fresh
  | _                  => false

/-- The book's verdicts on a list of updates. -/
def verdicts (ring : RingId) (orderbooks : Nat → FastOrderBook) : List FastUpdate → List Outcome
  | []                => []
  | update :: updates =>
    .applied ring update (decide ((orderbooks update.symbolId).lastUpdateId < update.updateId)) ::
      verdicts ring (applyAll orderbooks [update]) updates

def venuesStep (v : Venues) : Call → Venues × List Outcome
  | .registerSymbol symbol tickSize =>
    ({ v with processor := (v.processor.registerSymbol symbol tickSize).1 }, [])
  | .processUpdate update =>
    match v.processor.convertUpdate update with
    | .ok (some fast) =>
      ({ v with processor := v.processor.push update.exchange fast },
        [.pushed update.exchange fast
          ((v.processor.rings (getRingBuffer update.exchange)).push fast).2])
    | _ => (v, [.unconverted update.exchange])
  | .processRing ring =>
    ({ processor := (v.processor.processRingBatched ring v.batch).1
       batch     := (v.processor.processRingBatched ring v.batch).2.1 },
      verdicts ring v.processor.orderbooks (v.processor.taken ring v.batch))

/-! ## One exchange -/

/-- The calls both runs have to share: registrations and the exchange's own updates. -/
def ownCall (exchange : Exchange) : Call → Bool
  | .registerSymbol ..    => true
  | .processUpdate update => decide (update.exchange = exchange)
  | .processRing _        => false

/-- What happens to the exchange's updates on their way into the ring. -/
def ownPush (exchange : Exchange) : Outcome → Bool
  | .unconverted e => decide (e = exchange)
  | .pushed e _ _  => decide (e = exchange)
  | .applied ..    => false

/-- The verdicts of one book on what comes out of one ring. -/
def ownVerdict (ring : RingId) (id : Nat) : Outcome → Bool
  | .applied r update _ => decide (r = ring) && decide (update.symbolId = id)
  | _                   => false

def acceptedUpdate? (exchange : Exchange) : Outcome → Option FastUpdate
  | .pushed e update true => if e = exchange then some update else none
  | _                     => none

def appliedUpdate? (ring : RingId) : Outcome → Option FastUpdate
  | .applied r update _ => if r = ring then some update else none
  | _                   => none

/-- The updates the exchange got into its ring. -/
def acceptedBy (exchange : Exchange) (out : List Outcome) : List FastUpdate :=
  out.filterMap (acceptedUpdate? exchange)

/-- The updates that came out of a ring. -/
def appliedFrom (ring : RingId) (out : List Outcome) : List FastUpdate := out.filterMap (appliedUpdate? ring)

theorem acceptedBy_append (exchange : Exchange) (out out' : List Outcome) :
    acceptedBy exchange (out ++ out') = acceptedBy exchange out ++ acceptedBy exchange out' :=
  List.filterMap_append ..

theorem appliedFrom_append (ring : RingId) (out out' : List Outcome) :
    appliedFrom ring (out ++ out') = appliedFrom ring out ++ appliedFrom ring out' :=
  List.filterMap_append ..

@[simp] theorem acceptedUpdate?_applied (exchange : Exchange) (ring : RingId) (update : FastUpdate) (fresh : Bool) :
    acceptedUpdate? exchange (.applied ring update fresh) = none := rfl

@[simp] theorem appliedUpdate?_applied (ring r : RingId) (update : FastUpdate) (fresh : Bool) :
    appliedUpdate? ring (.applied r update fresh) = if r = ring then some update else none := rfl

/-- No other exchange disturbs: none pushes into this exchange's ring, this ring has room for each of the
    exchange's own updates, and whatever the other rings bring for the book is old news. -/
def Undisturbed (exchange : Exchange) (id : Nat) (v : Venues) : Call → Prop
  | .registerSymbol ..    => True
  | .processUpdate update =>
    if update.exchange = exchange then
      ((v.processor.rings (getRingBuffer exchange)).tail + 1) % ringBufferSize
        ≠ (v.processor.rings (getRingBuffer exchange)).head
    else getRingBuffer update.exchange ≠ getRingBuffer exchange
  | .processRing ring     =>
    ring = getRingBuffer exchange ∨
      ∀ update ∈ v.processor.taken ring v.batch, update.symbolId = id →
        update.updateId ≤ (v.processor.orderbooks id).lastUpdateId

instance (exchange : Exchange) (id : Nat) (v : Venues) : (c : Call) → Decidable (Undisturbed exchange id v c)
  | .registerSymbol ..    => isTrue trivial
  | .processUpdate update =>
    inferInstanceAs (Decidable (if update.exchange = exchange then
      ((v.processor.rings (getRingBuffer exchange)).tail + 1) % ringBufferSize
        ≠ (v.processor.rings (getRingBuffer exchange)).head
      else getRingBuffer update.exchange ≠ getRingBuffer exchange))
  | .processRing ring     =>
    inferInstanceAs (Decidable (ring = getRingBuffer exchange ∨
      ∀ update ∈ v.processor.taken ring v.batch, update.symbolId = id →
        update.updateId ≤ (v.processor.orderbooks id).lastUpdateId))

theorem hasRoom_of_undisturbed {exchange : Exchange} {id : Nat} {v : Venues} {update : OrderBookUpdate}
    (h : Undisturbed exchange id v (.processUpdate update)) (hown : update.exchange = exchange) :
    ((v.processor.rings (getRingBuffer exchange)).tail + 1) % ringBufferSize
      ≠ (v.processor.rings (getRingBuffer exchange)).head := by
  simpa [Undisturbed, hown] using h

theorem otherRing_of_undisturbed {exchange : Exchange} {id : Nat} {v : Venues} {update : OrderBookUpdate}
    (h : Undisturbed exchange id v (.processUpdate update)) (hother : ¬ update.exchange = exchange) :
    getRingBuffer update.exchange ≠ getRingBuffer exchange := by
  simpa [Undisturbed, hother] using h

/-! ## The way in -/

/-- The two processors convert alike. -/
structure SameTables (v w : Venues) : Prop where
  symbolToId : v.processor.symbolToId = w.processor.symbolToId
  idToSymbol : v.processor.idToSymbol = w.processor.idToSymbol
  tickSizes  : v.processor.tickSizes = w.processor.tickSizes

theorem SameTables.symm {v w : Venues} (h : SameTables v w) : SameTables w v :=
  ⟨h.symbolToId.symm, h.idToSymbol.symm, h.tickSizes.symm⟩

theorem SameTables.convertUpdate {v w : Venues} (h : SameTables v w) (update : OrderBookUpdate) :
    v.processor.convertUpdate update = w.processor.convertUpdate update := by
  unfold HFTOrderBookProcessor.convertUpdate
  rw [h.symbolToId, h.tickSizes]

theorem SameTables.registerSymbol {v w : Venues} (h : SameTables v w) (symbol : String) (tickSize : ℚ) :
    SameTables { v with processor := (v.processor.registerSymbol symbol tickSize).1 }
      { w with processor := (w.processor.registerSymbol symbol tickSize).1 } := by
  unfold HFTOrderBookProcessor.registerSymbol
  rw [h.symbolToId, h.idToSymbol, h.tickSizes]
  cases w.processor.symbolToId symbol with
  | some id => exact h
  | none =>
      simp only []
      split <;> exact ⟨rfl, rfl, rfl⟩

/-- A call that is neither a registration nor an own update leaves the tables and emits no own push. -/
theorem SameTables.foreign {exchange : Exchange} {v : Venues} {c : Call} (hc : ownCall exchange c = false) :
    SameTables (venuesStep v c).1 v ∧ (venuesStep v c).2.filter (ownPush exchange) = [] := by
  cases c with
  | registerSymbol => cases hc
  | processUpdate update =>
      have hne : ¬ update.exchange = exchange := by simpa [ownCall] using hc
      unfold venuesStep
      simp only []
      split
      · exact ⟨⟨rfl, rfl, rfl⟩, by simp [ownPush, hne]⟩
      · exact ⟨⟨rfl, rfl, rfl⟩, by simp [ownPush, hne]⟩
  | processRing ring =>
      refine ⟨⟨rfl, rfl, rfl⟩, ?_⟩
      show (verdicts ring v.processor.orderbooks (v.processor.taken ring v.batch)).filter _ = []
      apply List.filter_eq_nil_iff.mpr
      generalize v.processor.orderbooks = books
      induction v.processor.taken ring v.batch generalizing books with
      | nil => intro o ho; cases ho
      | cons update updates ih =>
          intro o ho
          rcases List.mem_cons.mp ho with rfl | ho
          · exact Bool.false_ne_true
          · exact ih _ o ho

theorem pushes_unwinding (exchange : Exchange) (id : Nat) :
    Machine.Unwinding venuesStep (Undisturbed exchange id) (ownCall exchange) (ownPush exchange) SameTables where
  symm := fun _ _ h => h.symm
  low_step := by
    intro v w c h hc hv hw
    cases c with
    | registerSymbol symbol tickSize => exact ⟨h.registerSymbol symbol tickSize, rfl⟩
    | processRing => cases hc
    | processUpdate update =>
        have hown : update.exchange = exchange := by simpa [ownCall] using hc
        have hv := hasRoom_of_undisturbed hv hown
        have hw := hasRoom_of_undisturbed hw hown
        unfold venuesStep
        simp only [h.convertUpdate update]
        split
        · refine ⟨⟨h.symbolToId, h.idToSymbol, h.tickSizes⟩, ?_⟩
          -- both rings have room
          unfold RingBuffer.push
          simp only [hown, if_neg hv, if_neg hw]
        · exact ⟨h, rfl⟩
  high_step := by
    intro v w c h hc _
    obtain ⟨hsame, hout⟩ := @SameTables.foreign exchange v c hc
    exact ⟨⟨hsame.symbolToId.trans h.symbolToId, hsame.idToSymbol.trans h.idToSymbol,
      hsame.tickSizes.trans h.tickSizes⟩, hout⟩

/-! ## The way through -/

/-- What a run without disturbance has come to, in terms of everything it emitted. -/
structure Apart (exchange : Exchange) (id : Nat) (v : Venues) (out : List Outcome) : Prop where
  ticks    : v.processor.tickSizes.length = maxSymbols
  holding  : v.processor.Holding SymbolInRange v.batch
  inRange  : ∀ ring, (v.processor.rings ring).InRange
  queue    : acceptedBy exchange out
               = appliedFrom (getRingBuffer exchange) out ++ (v.processor.rings (getRingBuffer exchange)).contents
  book     : v.processor.orderbooks id
               = (FastOrderBook.new id).applyUpdates
                   ((appliedFrom (getRingBuffer exchange) out).filter (·.symbolId = id))
  judged   : out.filter (ownVerdict (getRingBuffer exchange) id)
               = (verdicts (getRingBuffer exchange) FastOrderBook.new
                   (appliedFrom (getRingBuffer exchange) out)).filter (ownVerdict (getRingBuffer exchange) id)

theorem apart_new (exchange : Exchange) (id : Nat) : Apart exchange id .new [] where
  ticks    := registry_new.ticks
  holding  :=
    ⟨fun _ _ => show 0 < maxSymbols by decide, by intro update h; cases List.eq_of_mem_replicate h⟩
  inRange  := fun _ => RingBuffer.inRange_new
  queue    := by
    show [] = [] ++ RingBuffer.new.contents
    rw [RingBuffer.contents_new]
    rfl
  book     := rfl
  judged   := rfl

theorem verdicts_append (ring : RingId) (orderbooks : Nat → FastOrderBook) (xs ys : List FastUpdate) :
    verdicts ring orderbooks (xs ++ ys)
      = verdicts ring orderbooks xs ++ verdicts ring (applyAll orderbooks xs) ys := by
  induction xs generalizing orderbooks with
  | nil => rfl
  | cons update xs ih =>
      show _ :: verdicts ring _ (xs ++ ys) = _
      rw [ih]
      rfl

/-- The verdicts of one book depend on that book alone. -/
theorem filter_verdicts_congr {ring : RingId} {id : Nat} {books books' : Nat → FastOrderBook}
    (h : books id = books' id) (updates : List FastUpdate) :
    (verdicts ring books updates).filter (ownVerdict ring id)
      = (verdicts ring books' updates).filter (ownVerdict ring id) := by
  induction updates generalizing books books' with
  | nil => rfl
  | cons update updates ih =>
      have hnext : applyAll books [update] id = applyAll books' [update] id := by
        rw [applyAll_book, applyAll_book, h]
      unfold verdicts
      rw [List.filter_cons, List.filter_cons, ih hnext]
      by_cases hid : update.symbolId = id
      · subst hid
        rw [h]
      · have hno : ∀ fresh, ownVerdict ring id (.applied ring update fresh) = false := by
          intro fresh
          simp [ownVerdict, hid]
        simp only [hno, Bool.false_eq_true, if_false]

theorem filter_verdicts_other {ring ring' : RingId} (hring : ring' ≠ ring) (id : Nat)
    (books : Nat → FastOrderBook) (updates : List FastUpdate) :
    (verdicts ring' books updates).filter (ownVerdict ring id) = [] := by
  induction updates generalizing books with
  | nil => rfl
  | cons update updates ih =>
      unfold verdicts
      rw [List.filter_cons_of_neg (by simp [ownVerdict, hring]), ih]

theorem appliedFrom_verdicts (ring : RingId) (books : Nat → FastOrderBook) (updates : List FastUpdate) :
    appliedFrom ring (verdicts ring books updates) = updates := by
  induction updates generalizing books with
  | nil => rfl
  | cons update updates ih =>
      unfold verdicts appliedFrom
      rw [List.filterMap_cons, appliedUpdate?_applied, if_pos rfl]
      exact congrArg _ (ih _)

theorem appliedFrom_verdicts_other {ring ring' : RingId} (hring : ring' ≠ ring) (books : Nat → FastOrderBook)
    (updates : List FastUpdate) : appliedFrom ring (verdicts ring' books updates) = [] := by
  induction updates generalizing books with
  | nil => rfl
  | cons update updates ih =>
      unfold verdicts appliedFrom
      rw [List.filterMap_cons, appliedUpdate?_applied, if_neg hring]
      exact ih _

theorem acceptedBy_verdicts (exchange : Exchange) (ring : RingId) (books : Nat → FastOrderBook)
    (updates : List FastUpdate) : acceptedBy exchange (verdicts ring books updates) = [] := by
  induction updates generalizing books with
  | nil => rfl
  | cons update updates ih =>
      unfold verdicts acceptedBy
      rw [List.filterMap_cons, acceptedUpdate?_applied]
      exact ih _

/-- Old news for the book does nothing to it. -/
theorem applyUpdates_stale {b : FastOrderBook} {updates : List FastUpdate}
    (h : ∀ update ∈ updates, update.updateId ≤ b.lastUpdateId) : b.applyUpdates updates = b := by
  induction updates with
  | nil => rfl
  | cons update updates ih =>
      show (b.applyUpdate update).applyUpdates updates = b
      rw [FastOrderBook.applyUpdate_stale (h update (List.mem_cons_self ..))]
      exact ih fun u hu => h u (List.mem_cons_of_mem _ hu)

theorem tickSizes_registerSymbol (p : HFTOrderBookProcessor) (symbol : String) (tickSize : ℚ) :
    (p.registerSymbol symbol tickSize).1.tickSizes.length = p.tickSizes.length := by
  unfold registerSymbol
  split
  · rfl
  · simp only []
    split
    · exact List.length_set
    · rfl

/-- A converted update has an id that indexes the tick sizes. -/
theorem symbolId_convertUpdate {p : HFTOrderBookProcessor} {update : OrderBookUpdate} {fast : FastUpdate}
    (h : p.convertUpdate update = .ok (some fast)) : fast.symbolId < p.tickSizes.length := by
  unfold convertUpdate at h
  split at h
  · cases h
  · split at h
    · cases h
    next htick =>
      cases h
      exact (List.getElem?_eq_some_iff.mp htick).1

theorem Apart.registerSymbol {exchange : Exchange} {id : Nat} {v : Venues} {out : List Outcome}
    (h : Apart exchange id v out) (symbol : String) (tickSize : ℚ) :
    Apart exchange id { v with processor := (v.processor.registerSymbol symbol tickSize).1 } out := by
  obtain ⟨hbooks, hrings⟩ := registerSymbol_frame v.processor symbol tickSize
  refine ⟨?_, ⟨?_, h.holding.batch⟩, ?_, ?_, ?_, h.judged⟩
  · exact (tickSizes_registerSymbol ..).trans h.ticks
  · simp only [hrings]
    exact h.holding.rings
  · simp only [hrings]
    exact h.inRange
  · simp only [hrings]
    exact h.queue
  · simp only [hbooks]
    exact h.book

theorem Apart.push {exchange : Exchange} {id : Nat} {v : Venues} {out : List Outcome}
    (h : Apart exchange id v out) {update : OrderBookUpdate}
    (hguard : Undisturbed exchange id v (.processUpdate update)) {fast : FastUpdate}
    (hfast : v.processor.convertUpdate update = .ok (some fast)) :
    Apart exchange id { v with processor := v.processor.push update.exchange fast }
      (out ++ [.pushed update.exchange fast ((v.processor.rings (getRingBuffer update.exchange)).push fast).2]) := by
  have hsymbol : SymbolInRange fast := by
    unfold SymbolInRange
    rw [← h.ticks]
    exact symbolId_convertUpdate hfast
  have happlied : ∀ accepted, appliedFrom (getRingBuffer exchange)
      (out ++ [.pushed update.exchange fast accepted]) = appliedFrom (getRingBuffer exchange) out := by
    intro accepted
    rw [appliedFrom_append]
    exact List.append_nil _
  refine ⟨h.ticks, h.holding.push update.exchange hsymbol, ?_, ?_, ?_, ?_⟩
  · intro ring
    show (Function.update v.processor.rings _ _ ring).InRange
    by_cases hring : ring = getRingBuffer update.exchange
    · subst hring
      rw [Function.update_self]
      exact (h.inRange _).push fast
    · rw [Function.update_of_ne hring]
      exact h.inRange ring
  · rw [acceptedBy_append, happlied, h.queue]
    show _ = _ ++ (Function.update v.processor.rings _ _ (getRingBuffer exchange)).contents
    by_cases hown : update.exchange = exchange
    · -- its own ring has room, and the update goes to the back of the queue
      have hroom := hasRoom_of_undisturbed hguard hown
      have haccepted : ((v.processor.rings (getRingBuffer exchange)).push fast).2 = true := by
        unfold RingBuffer.push
        rw [if_neg hroom]
      rw [hown, Function.update_self, RingBuffer.contents_push (h.inRange _) haccepted, haccepted,
        List.append_assoc]
      simp [acceptedBy, acceptedUpdate?]
    · have hring := otherRing_of_undisturbed hguard hown
      rw [Function.update_of_ne (Ne.symm hring)]
      have hnone : acceptedBy exchange
          [.pushed update.exchange fast ((v.processor.rings (getRingBuffer update.exchange)).push fast).2] = [] := by
        cases ((v.processor.rings (getRingBuffer update.exchange)).push fast).2 <;>
          simp [acceptedBy, acceptedUpdate?, hown]
      rw [hnone, List.append_nil]
  · rw [happlied]
    exact h.book
  · rw [happlied, List.filter_append, h.judged]
    exact List.append_nil _

/-- A batch of the exchange's own ring: its updates leave the queue and reach the book. -/
theorem Apart.processOwnRing {exchange : Exchange} {id : Nat} {v : Venues} {out : List Outcome}
    (h : Apart exchange id v out) :
    Apart exchange id (venuesStep v (.processRing (getRingBuffer exchange))).1
      (out ++ (venuesStep v (.processRing (getRingBuffer exchange))).2) := by
  obtain ⟨hrings, hbooks, _⟩ := processRingBatched_eq h.holding (getRingBuffer exchange)
  obtain ⟨hcontents, hrange⟩ := RingBuffer.contents_popMany (h.inRange (getRingBuffer exchange)) v.batch.length
  unfold venuesStep
  simp only []
  have happlied : appliedFrom (getRingBuffer exchange)
      (out ++ verdicts (getRingBuffer exchange) v.processor.orderbooks
        (v.processor.taken (getRingBuffer exchange) v.batch))
      = appliedFrom (getRingBuffer exchange) out ++ v.processor.taken (getRingBuffer exchange) v.batch := by
    rw [appliedFrom_append, appliedFrom_verdicts]
  refine ⟨h.ticks, h.holding.processRingBatched _, ?_, ?_, ?_, ?_⟩
  · intro ring
    rw [hrings]
    by_cases hring : ring = getRingBuffer exchange
    · subst hring
      rw [Function.update_self]
      exact hrange
    · rw [Function.update_of_ne hring]
      exact h.inRange ring
  · rw [acceptedBy_append, acceptedBy_verdicts, List.append_nil, happlied, hrings, Function.update_self,
      List.append_assoc, h.queue, hcontents]
    rfl
  · rw [hbooks, applyAll_book, h.book, happlied, List.filter_append]
    unfold FastOrderBook.applyUpdates
    rw [List.foldl_append]
  · rw [happlied, verdicts_append, List.filter_append, List.filter_append, h.judged]
    congr 1
    apply filter_verdicts_congr
    rw [h.book, applyAll_book]

/-- A batch of another ring: for this book it was old news. -/
theorem Apart.processOtherRing {exchange : Exchange} {id : Nat} {v : Venues} {out : List Outcome}
    (h : Apart exchange id v out) {ring : RingId} (hring : ring ≠ getRingBuffer exchange)
    (hstale : ∀ update ∈ v.processor.taken ring v.batch, update.symbolId = id →
      update.updateId ≤ (v.processor.orderbooks id).lastUpdateId) :
    Apart exchange id (venuesStep v (.processRing ring)).1 (out ++ (venuesStep v (.processRing ring)).2) := by
  obtain ⟨hrings, hbooks, _⟩ := processRingBatched_eq h.holding ring
  obtain ⟨_, hrange⟩ := RingBuffer.contents_popMany (h.inRange ring) v.batch.length
  unfold venuesStep
  simp only []
  have happlied : appliedFrom (getRingBuffer exchange)
      (out ++ verdicts ring v.processor.orderbooks (v.processor.taken ring v.batch))
      = appliedFrom (getRingBuffer exchange) out := by
    rw [appliedFrom_append, appliedFrom_verdicts_other hring, List.append_nil]
  refine ⟨h.ticks, h.holding.processRingBatched _, ?_, ?_, ?_, ?_⟩
  · intro other
    rw [hrings]
    by_cases hother : other = ring
    · subst hother
      rw [Function.update_self]
      exact hrange
    · rw [Function.update_of_ne hother]
      exact h.inRange other
  · rw [acceptedBy_append, acceptedBy_verdicts, List.append_nil, happlied, hrings,
      Function.update_of_ne (Ne.symm hring), h.queue]
  · rw [hbooks, applyAll_book, applyUpdates_stale, h.book, happlied]
    intro update hu
    obtain ⟨hmem, hid⟩ := List.mem_filter.mp hu
    exact hstale update hmem (of_decide_eq_true hid)
  · rw [happlied, List.filter_append, filter_verdicts_other hring, List.append_nil, h.judged]

theorem Apart.step {exchange : Exchange} {id : Nat} (v : Venues) (out : List Outcome) (c : Call)
    (h : Apart exchange id v out) (hguard : Undisturbed exchange id v c) :
    Apart exchange id (venuesStep v c).1 (out ++ (venuesStep v c).2) := by
  cases c with
  | registerSymbol symbol tickSize =>
      show Apart exchange id _ (out ++ [])
      rw [List.append_nil]
      exact h.registerSymbol symbol tickSize
  | processUpdate update =>
      unfold venuesStep
      simp only []
      split
      next fast hfast => exact h.push hguard hfast
      next =>
        -- refused before the ring: nothing moves
        have happlied : appliedFrom (getRingBuffer exchange) (out ++ [.unconverted update.exchange])
            = appliedFrom (getRingBuffer exchange) out := by
          rw [appliedFrom_append]
          exact List.append_nil _
        have haccepted : acceptedBy exchange (out ++ [.unconverted update.exchange]) = acceptedBy exchange out := by
          rw [acceptedBy_append]
          exact List.append_nil _
        refine ⟨h.ticks, h.holding, h.inRange, ?_, ?_, ?_⟩
        · rw [haccepted, happlied]
          exact h.queue
        · rw [happlied]
          exact h.book
        · rw [happlied, List.filter_append, h.judged]
          exact List.append_nil _
  | processRing ring =>
      by_cases hring : ring = getRingBuffer exchange
      · subst hring
        exact h.processOwnRing
      · exact h.processOtherRing hring (hguard.resolve_left hring)

theorem apart_run {exchange : Exchange} {id : Nat} {calls : List Call}
    (h : Machine.Guarded venuesStep (Undisturbed exchange id) .new calls) :
    Apart exchange id (Machine.run venuesStep .new calls).1 (Machine.run venuesStep .new calls).2 :=
  h.trace_invariant Apart.step (apart_new exchange id)

/-! ## Two runs -/

/-- The accepted updates can be read off the exchange's own pushes. -/
theorem acceptedBy_filter (exchange : Exchange) (out : List Outcome) :
    acceptedBy exchange (out.filter (ownPush exchange)) = acceptedBy exchange out := by
  unfold acceptedBy
  rw [List.filterMap_filter]
  apply List.filterMap_congr
  intro o _
  cases o with
  | unconverted => simp [acceptedUpdate?]
  | applied => simp [acceptedUpdate?, ownPush]
  | pushed e update accepted =>
      by_cases he : e = exchange
      · simp [ownPush, he]
      · cases accepted <;> simp [acceptedUpdate?, ownPush, he]

/-- What a processor reports for a symbol depends on the tables and on the book of its id. -/
theorem getOrderbook_congr {v w : Venues} (h : SameTables v w) {id : Nat}
    (hbook : v.processor.orderbooks id = w.processor.orderbooks id) {symbol : String}
    (hid : ∀ i ∈ v.processor.symbolToId symbol, i = id) :
    v.processor.getOrderbook symbol = w.processor.getOrderbook symbol := by
  unfold getOrderbook
  rw [← h.symbolToId, ← h.tickSizes]
  cases hsymbol : v.processor.symbolToId symbol with
  | none => rfl
  | some i =>
      obtain rfl := hid i (by rw [hsymbol]; rfl)
      simp only [hbook]

/-- **When exchanges are isolated.** Take two runs, in any order of calls, that register the same symbols and
    contain the same updates of one exchange. If nothing disturbs it in either, and its ring has been worked
    off, then its updates have met the same fate in both, at the ring and at the book of this id, and the book
    reported for a symbol with this id is the same. -/
theorem exchanges_isolated {exchange : Exchange} {id : Nat} {calls calls' : List Call}
    (hown : calls.filter (ownCall exchange) = calls'.filter (ownCall exchange))
    (hundisturbed : Machine.Guarded venuesStep (Undisturbed exchange id) .new calls)
    (hundisturbed' : Machine.Guarded venuesStep (Undisturbed exchange id) .new calls')
    (hdrained : ((Machine.run venuesStep .new calls).1.processor.rings (getRingBuffer exchange)).Drained)
    (hdrained' : ((Machine.run venuesStep .new calls').1.processor.rings (getRingBuffer exchange)).Drained) :
    (Machine.run venuesStep .new calls).2.filter (ownPush exchange)
        = (Machine.run venuesStep .new calls').2.filter (ownPush exchange) ∧
    (Machine.run venuesStep .new calls).2.filter (ownVerdict (getRingBuffer exchange) id)
        = (Machine.run venuesStep .new calls').2.filter (ownVerdict (getRingBuffer exchange) id) ∧
    ∀ symbol, (∀ i ∈ (Machine.run venuesStep .new calls).1.processor.symbolToId symbol, i = id) →
      (Machine.run venuesStep .new calls).1.processor.getOrderbook symbol
        = (Machine.run venuesStep .new calls').1.processor.getOrderbook symbol := by
  obtain ⟨hsame, hpushes⟩ := (pushes_unwinding exchange id).run_agree ⟨rfl, rfl, rfl⟩ hundisturbed
    hundisturbed' hown
  have hrun := apart_run hundisturbed
  have hrun' := apart_run hundisturbed'
  generalize Machine.run venuesStep .new calls = r at *
  generalize Machine.run venuesStep .new calls' = r' at *
  -- with the ring empty, what was applied is what was accepted, and that is the same in both
  have happlied : appliedFrom (getRingBuffer exchange) r.2 = appliedFrom (getRingBuffer exchange) r'.2 := by
    have hqueue := hrun.queue
    have hqueue' := hrun'.queue
    rw [RingBuffer.contents_of_drained hdrained, List.append_nil] at hqueue
    rw [RingBuffer.contents_of_drained hdrained', List.append_nil] at hqueue'
    rw [← hqueue, ← hqueue', ← acceptedBy_filter, hpushes, acceptedBy_filter]
  refine ⟨hpushes, ?_, ?_⟩
  · rw [hrun.judged, hrun'.judged, happlied]
  · intro symbol hid
    apply getOrderbook_congr hsame _ hid
    rw [hrun.book, hrun'.book, happlied]

/-! ## One symbol name -/

/-- A bid and an ask of one exchange. -/
def oneLevel (exchange : Exchange) (symbol : String) (updateId : Nat) (bid ask : ℚ) : OrderBookUpdate where
  exchange      := exchange
  symbol        := symbol
  timestamp     := 0
  bids          := [⟨bid, 1⟩]
  asks          := [⟨ask, 1⟩]
  isSnapshot    := false
  updateId      := updateId
  firstUpdateId := updateId
  prevUpdateId  := none

/-- Bybit's update for BTCUSDT, alone or after one of Binance for a symbol of that name or another. -/
def bybitRun (foreign : List OrderBookUpdate) : List Call :=
  [.registerSymbol "BTCUSDT" (1 / 100), .registerSymbol "ETHUSDT" (1 / 100)]
    ++ foreign.map .processUpdate
    ++ [.processRing .binance, .processUpdate (oneLevel .bybit "BTCUSDT" 7 100 101), .processRing .bybit]

/-- The bids reported for BTCUSDT after such a run. -/
def shown (foreign : List OrderBookUpdate) : Option (List FastPriceLevel) :=
  ((Machine.run venuesStep .new (bybitRun foreign)).1.processor.getOrderbook "BTCUSDT").toOption.join.map
    FastOrderBookSnapshot.bids

theorem bybit_keeps_book :
    (Machine.run venuesStep .new (bybitRun [])).1.processor.getOrderbook "BTCUSDT"
      = (Machine.run venuesStep .new (bybitRun [oneLevel .binance "ETHUSDT" 900 200 201])).1.processor.getOrderbook
          "BTCUSDT" :=
  (@exchanges_isolated .bybit 0 (bybitRun []) (bybitRun [oneLevel .binance "ETHUSDT" 900 200 201]) rfl
    (by decide +kernel) (by decide +kernel) (by decide +kernel) (by decide +kernel)).2.2 "BTCUSDT"
    (by decide +kernel)

/-- Binance's update 900 under the same name: Bybit's update 7 is skipped as old, and the book shows Binance's
    bid. -/
theorem bybit_overtaken :
    (bybitRun []).filter (ownCall .bybit)
      = (bybitRun [oneLevel .binance "BTCUSDT" 900 200 201]).filter (ownCall .bybit) ∧
    ((Machine.run venuesStep .new (bybitRun [])).1.processor.rings .bybit).Drained ∧
    ((Machine.run venuesStep .new (bybitRun [oneLevel .binance "BTCUSDT" 900 200 201])).1.processor.rings
      .bybit).Drained ∧
    (shown [] = some [⟨10000, 10 ^ 8⟩] ∧
      shown [oneLevel .binance "BTCUSDT" 900 200 201] = some [⟨20000, 10 ^ 8⟩]) ∧
    ((Machine.run venuesStep .new (bybitRun [])).2.filter (ownVerdict .bybit 0)).map Outcome.isFresh = [true] ∧
    ((Machine.run venuesStep .new (bybitRun [oneLevel .binance "BTCUSDT" 900 200 201])).2.filter
      (ownVerdict .bybit 0)).map Outcome.isFresh = [false] := by
  refine ⟨rfl, ?_, ?_, ⟨?_, ?_⟩, ?_, ?_⟩
  · decide +kernel
  · decide +kernel
  · decide +kernel
  · decide +kernel
  · decide +kernel
  · decide +kernel

end HFTOrderBookProcessor
end Hft
end TradingPlatform
