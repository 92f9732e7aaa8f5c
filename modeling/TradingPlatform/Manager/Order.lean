import TradingPlatform.Manager.OneBuilder
import TradingPlatform.Hft.Integration

/-!
# `Manager.Order` — from a depth message to the builder

`process_binance_orderbook` makes an update of a message and spawns a task that hands it to the manager with
`try_send_update`. Nothing orders the tasks, and a full channel drops what it is offered. `Orderly` are the runs in
which no check is raced, and every task sends after the earlier ones and into a channel with room; over these the
symbol's builder gets the updates as they were handed in (`delivered_in_receipt_order`).
-/

namespace TradingPlatform
namespace Manager

open Market Json Rust Hft

/-! ## Reading a message -/

/-- A mapping for each exchange, from its symbols to the common ones. -/
structure SymbolMapper where
  exchanges : List (String × List (String × String))

def SymbolMapper.map (mapper : SymbolMapper) (exchange original : String) : Option String :=
  (mapper.exchanges.lookup exchange).bind (List.lookup original)

/-- The arguments of `process_binance_orderbook`, and the clock. -/
structure Message where
  data       : Value
  symbol     : String
  streamName : String
  now        : Int

def levelsOf (data : Value) (short long : String) : List PriceLevel := (sideItems data short long).filterMap readLevel

def updateOf (commonSymbol : String) (message : Message) : OrderBookUpdate where
  exchange      := .binance
  symbol        := commonSymbol
  timestamp     := ((message.data.get? "E").bind Value.asI64?).getD message.now
  bids          := levelsOf message.data "b" "bids"
  asks          := levelsOf message.data "a" "asks"
  isSnapshot    := contains message.streamName "@depth" && !contains message.streamName "@depth@"
  updateId      := updateIdOf message.data
  firstUpdateId := ((message.data.get? "U").bind Value.asU64?).getD (updateIdOf message.data)
  prevUpdateId  := (message.data.get? "pu").bind Value.asU64?

/-- The update that the spawned task sends. A symbol that is not mapped is skipped, and an update without levels
    unless it is a snapshot. -/
def processBinanceOrderbook (mapper : SymbolMapper) (message : Message) : Option OrderBookUpdate :=
  match mapper.map "Binance" message.symbol with
  | none => none
  | some commonSymbol =>
      let update := updateOf commonSymbol message
      if !update.isSnapshot && update.bids.isEmpty && update.asks.isEmpty then none else some update

/-! ## The feed -/

inductive FeedAction where
  | handIn (message : Message)
  | step (step : Step)

/-- A message that is handed in spawns a task; the tasks and the builders then take their steps. The manager has
    been initialised. -/
def feedStep (mapper : SymbolMapper) (s : System) : FeedAction → System × List Effect
  | .handIn message =>
      match processBinanceOrderbook mapper message with
      | some update => s.step (.call (.trySendUpdate update))
      | none        => (s, [])
  | .step st => s.step (.step st)

def fed (mapper : SymbolMapper) (acts : List FeedAction) : System := (Machine.run (feedStep mapper) .new acts).1

def fedEffects (mapper : SymbolMapper) (acts : List FeedAction) : List Effect :=
  (Machine.run (feedStep mapper) .new acts).2

def FeedAction.message? : FeedAction → Option Message
  | .handIn message => some message
  | .step _         => none

/-- The messages handed in, in order. -/
def messages (acts : List FeedAction) : List Message := acts.filterMap FeedAction.message?

/-- A message of this symbol that has levels. -/
def HasLevels (symbol : String) (message : Message) : Prop :=
  message.symbol = symbol ∧ (levelsOf message.data "b" "bids" ≠ [] ∨ levelsOf message.data "a" "asks" ≠ [])

/-- No check is raced; and a task sends when all earlier ones are done, into a channel with room. -/
def Orderly (s : System) : FeedAction → Prop
  | .step (.check c) => NoRace s (.step (.check c))
  | .step (.send c) =>
      ∀ call ∈ s.calls[c]?, ∀ b ∈ call.phase.ready?,
        (∀ earlier ∈ s.calls.take c, earlier.phase = .done) ∧ s.hasRoom b = true
  | _ => True

instance Orderly.decidable (s : System) : (a : FeedAction) → Decidable (Orderly s a)
  | .handIn _ => isTrue trivial
  | .step (.check c) => NoRace.decidable s (.step (.check c))
  | .step (.send c) => inferInstanceAs (Decidable (∀ call ∈ s.calls[c]?, ∀ b ∈ call.phase.ready?,
      (∀ earlier ∈ s.calls.take c, earlier.phase = .done) ∧ s.hasRoom b = true))
  | .step (.store _) => isTrue trivial
  | .step (.iterate ..) => isTrue trivial
  | .step (.close _) => isTrue trivial

/-! ## The tasks are the messages -/

/-- A call keeps its request. -/
theorem requests_setCall {s : System} {c : Nat} {request : Request} {old : Phase}
    (h : s.calls[c]? = some ⟨request, old⟩) (phase : Phase) : (s.setCall c request phase).requests = s.requests := by
  have hrequest : s.requests[c]? = some request := by
    rw [System.requests, List.getElem?_map, h]
    rfl
  obtain ⟨hc, hget⟩ := List.getElem?_eq_some_iff.mp hrequest
  have hset : (s.setCall c request phase).requests = s.requests.set c request := List.map_set
  rw [hset, ← hget]
  exact List.set_getElem_self hc

theorem requests_advance (s : System) (st : Step) : (s.step (.step st)).1.requests = s.requests := by
  have hmove := move_step s (.step st)
  generalize (s.step (.step st)).1 = s' at hmove
  generalize (s.step (.step st)).2 = out at hmove
  cases hmove with
  | found c request b hcall _ => exact requests_setCall hcall _
  | created c request hcall _ =>
      have hcall' : (s.spawn request.key).calls[c]? = some ⟨request, .called⟩ := hcall
      exact requests_setCall hcall' _
  | stored c request b hcall => exact requests_setCall hcall (.ready b)
  | sent c request b update task hcall _ _ => exact requests_setCall hcall .done
  | failed c request b update hcall _ _ => exact requests_setCall hcall _
  | returned c request b hcall _ => exact requests_setCall hcall _
  | iterated b expired task _ => rfl
  | closed b task _ _ => rfl
  | idle => rfl

theorem feedStep_spawns {mapper : SymbolMapper} {message : Message} {update : OrderBookUpdate}
    (h : processBinanceOrderbook mapper message = some update) (s : System) :
    feedStep mapper s (.handIn message) = s.step (.call (.trySendUpdate update)) := by
  simp [feedStep, h]

theorem feedStep_skips {mapper : SymbolMapper} {message : Message} (h : processBinanceOrderbook mapper message = none)
    (s : System) : feedStep mapper s (.handIn message) = (s, []) := by
  simp [feedStep, h]

theorem fed_snoc (mapper : SymbolMapper) (acts : List FeedAction) (a : FeedAction) :
    fed mapper (acts ++ [a]) = (feedStep mapper (fed mapper acts) a).1 := by
  unfold fed
  rw [Machine.run_append_state, Machine.run_cons, Machine.run_nil]

/-- **The tasks of a run** are those of its messages. -/
theorem requests_fed (mapper : SymbolMapper) (acts : List FeedAction) :
    (fed mapper acts).requests
      = ((messages acts).filterMap (processBinanceOrderbook mapper)).map Request.trySendUpdate := by
  induction acts using List.reverseRecOn with
  | nil => rfl
  | append_singleton acts a ih =>
      rw [fed_snoc]
      cases a with
      | step st =>
          have hsame : messages (acts ++ [.step st]) = messages acts := by
            simp [messages, FeedAction.message?]
          rw [hsame, ← ih]
          exact requests_advance _ st
      | handIn message =>
          have hmore : messages (acts ++ [.handIn message]) = messages acts ++ [message] := by
            simp [messages, FeedAction.message?]
          rw [hmore, List.filterMap_append, List.map_append, ← ih]
          cases hupdate : processBinanceOrderbook mapper message with
          | none => simp [feedStep_skips hupdate, hupdate]
          | some update => simp [feedStep_spawns hupdate, hupdate, System.step, System.requests]

/-- Every task sends an update for this key. -/
def TasksFor (key : Key) (s : System) : Prop :=
  ∀ request ∈ s.requests, ∃ u, request = .trySendUpdate u ∧ keyOf u = key

theorem tasks_fed {mapper : SymbolMapper} {key : Key} {acts : List FeedAction}
    (hkey : ∀ message ∈ messages acts, ∀ u, processBinanceOrderbook mapper message = some u → keyOf u = key) :
    TasksFor key (fed mapper acts) := by
  intro request hrequest
  rw [requests_fed] at hrequest
  obtain ⟨u, hu, rfl⟩ := List.mem_map.mp hrequest
  obtain ⟨message, hmessage, hupdate⟩ := List.mem_filterMap.mp hu
  exact ⟨u, rfl, hkey message hmessage u hupdate⟩

/-! ## In order -/

/-- The first `n` tasks are done, no other is, and they have sent what they were asked to. -/
structure InOrder (key : Key) (n : Nat) (s : System) (out : List Effect) : Prop where
  finished : ∀ i call, s.calls[i]? = some call → (call.phase = .done ↔ i < n)
  sent     : sentFor key out = (s.requests.take n).filterMap Request.update?
  le       : n ≤ s.calls.length

/-- Only the calls count. -/
theorem InOrder.calls {key : Key} {n : Nat} {s s' : System} {out : List Effect} (h : InOrder key n s out)
    (hcalls : s'.calls = s.calls) : InOrder key n s' out where
  finished := hcalls ▸ h.finished
  sent     := by rw [System.requests, hcalls, h.sent, System.requests]
  le       := hcalls ▸ h.le

/-- Nothing is sent and the calls stay as they are. -/
theorem InOrder.quiet {key : Key} {n : Nat} {s s' : System} {out new : List Effect} (h : InOrder key n s out)
    (hcalls : s'.calls = s.calls) (hsent : sentFor key new = []) : InOrder key n s' (out ++ new) where
  finished := (h.calls hcalls).finished
  sent     := by rw [sentFor_append, hsent, List.append_nil, (h.calls hcalls).sent]
  le       := (h.calls hcalls).le

/-- A task that is not done goes on without being done. -/
theorem InOrder.setCall {key : Key} {n : Nat} {s : System} {out : List Effect} {c : Nat} {request : Request}
    {old phase : Phase} (h : InOrder key n s out) (hcall : s.calls[c]? = some ⟨request, old⟩) (hold : old ≠ .done)
    (hphase : phase ≠ .done) : InOrder key n (s.setCall c request phase) out where
  finished := by
    intro i call hi
    by_cases hic : c = i
    · subst hic
      rw [System.setCall, List.getElem?_set_self (List.getElem?_eq_some_iff.mp hcall).1] at hi
      obtain rfl := Option.some.inj hi
      have hwaiting := (h.finished c _ hcall).not.mp hold
      exact ⟨fun hdone => absurd hdone hphase, fun hlt => absurd hlt hwaiting⟩
    · rw [System.setCall, List.getElem?_set_ne hic] at hi
      exact h.finished i call hi
  sent     := by rw [requests_setCall hcall, h.sent]
  le       := by simpa [System.setCall] using h.le

/-- **The next task sends.** -/
theorem InOrder.send {key : Key} {n : Nat} {s : System} {out : List Effect} {request : Request} {old : Phase}
    {b : Nat} {update : OrderBookUpdate} (h : InOrder key n s out) (hcall : s.calls[n]? = some ⟨request, old⟩)
    (hupdate : request.update? = some update) (hkey : keyOf update = key) :
    InOrder key (n + 1) (s.setCall n request .done) (out ++ [.sent n b update]) where
  finished := by
    intro i call hi
    by_cases hic : n = i
    · subst hic
      rw [System.setCall, List.getElem?_set_self (List.getElem?_eq_some_iff.mp hcall).1] at hi
      obtain rfl := Option.some.inj hi
      exact ⟨fun _ => Nat.lt_succ_self _, fun _ => rfl⟩
    · rw [System.setCall, List.getElem?_set_ne hic] at hi
      rw [h.finished i call hi]
      omega
  sent     := by
    have hnext : s.requests[n]? = some request := by
      rw [System.requests, List.getElem?_map, hcall]
      rfl
    rw [requests_setCall hcall, List.take_add_one, hnext, List.filterMap_append, ← h.sent, sentFor_append,
      sentFor_sent, if_pos hkey]
    simp [hupdate]
  le       := by
    show n + 1 ≤ (s.calls.set n _).length
    rw [List.length_set]
    exact (List.getElem?_eq_some_iff.mp hcall).1

/-- A task that sends in turn is the next one. -/
theorem InOrder.next {key : Key} {n : Nat} {s : System} {out : List Effect} {c : Nat} {call : Call}
    (h : InOrder key n s out) (hcall : s.calls[c]? = some call) (hwaiting : call.phase ≠ .done)
    (hearlier : ∀ earlier ∈ s.calls.take c, earlier.phase = .done) : c = n := by
  have hge : ¬ c < n := (h.finished c call hcall).not.mp hwaiting
  have hlt := (List.getElem?_eq_some_iff.mp hcall).1
  by_contra hne
  have hn : n < s.calls.length := by omega
  have hmem : s.calls[n] ∈ s.calls.take c := List.mem_take_iff_getElem.mpr ⟨n, by omega, rfl⟩
  exact absurd ((h.finished n _ (List.getElem?_eq_getElem hn)).mp (hearlier _ hmem)) (Nat.lt_irrefl n)

/-- A call that has its sender finds the receiver there. -/
theorem Delivered.alive {s : System} {out : List Effect} (h : Delivered s out) (hs : Owned s) {c b : Nat}
    {request : Request} (hcall : s.calls[c]? = some ⟨request, .ready b⟩) : s.alive b = true := by
  have hkey : s.keys[b]? = some request.key := hs.sender _ (List.mem_of_getElem? hcall) b rfl
  rw [System.keys, List.getElem?_map, Option.map_eq_some_iff] at hkey
  obtain ⟨task, htask, _⟩ := hkey
  obtain ⟨_, hrunning, hopen⟩ := h.loops task (List.mem_of_getElem? htask)
  simp [System.alive, htask, hrunning, hopen]

/-- **One step of an orderly run.** -/
theorem InOrder.step {key : Key} {n : Nat} {s : System} {out : List Effect} {st : Step} (h : InOrder key n s out)
    (hs : Owned s) (hd : Delivered s out) (htasks : TasksFor key s) (hguard : Orderly s (.step st)) :
    ∃ n', InOrder key n' (s.step (.step st)).1 (out ++ (s.step (.step st)).2) := by
  have hmove := move_step s (.step st)
  generalize (s.step (.step st)).1 = s' at hmove
  generalize (s.step (.step st)).2 = new at hmove
  have htask : ∀ {c : Nat} {call : Call}, s.calls[c]? = some call →
      ∃ u, call.request = .trySendUpdate u ∧ keyOf u = key :=
    fun hcall => htasks _ (List.mem_map_of_mem (List.mem_of_getElem? hcall))
  cases hmove with
  | found c request b hcall _ =>
      rw [List.append_nil]
      exact ⟨n, h.setCall hcall (by simp) (by simp)⟩
  | created c request hcall _ =>
      have hspawned : InOrder key n (s.spawn request.key) (out ++ []) := h.quiet rfl rfl
      exact ⟨n, hspawned.setCall hcall (by simp) (by simp)⟩
  | stored c request b hcall =>
      have hready : InOrder key n (s.setCall c request (.ready b)) out := h.setCall hcall (by simp) (by simp)
      exact ⟨n, hready.quiet rfl rfl⟩
  | sent c request b update task hcall hupdate _ =>
      obtain ⟨u, rfl, hkey⟩ := htask hcall
      obtain rfl := Option.some.inj hupdate
      obtain ⟨hearlier, _⟩ := hguard _ hcall b rfl
      obtain rfl := h.next hcall (by simp) hearlier
      exact ⟨c + 1, (h.send hcall rfl hkey).calls rfl⟩
  | failed c request b update hcall _ hrefused =>
      -- the receiver is there, and so is the room
      obtain ⟨_, hroom⟩ := hguard _ hcall b rfl
      rw [hd.alive hs hcall, hroom] at hrefused
      cases hrefused
  | returned c request b hcall hnone =>
      obtain ⟨u, hrequest, _⟩ := htask hcall
      rw [show request = _ from hrequest] at hnone
      cases hnone
  | iterated b expired task _ => exact ⟨n, h.quiet rfl (sentFor_map key b _)⟩
  | closed b task _ _ => exact ⟨n, h.quiet rfl rfl⟩
  | idle => exact ⟨n, h.quiet rfl rfl⟩

/-- A new task waits behind the others. -/
theorem InOrder.called {key : Key} {n : Nat} {s : System} {out : List Effect} (h : InOrder key n s out)
    (request : Request) : InOrder key n (s.step (.call request)).1 (out ++ (s.step (.call request)).2) where
  finished := by
    intro i call hi
    rcases Nat.lt_or_ge i s.calls.length with hlt | hge
    · rw [System.step, List.getElem?_append_left hlt] at hi
      exact h.finished i call hi
    · rw [System.step, List.getElem?_append_right hge] at hi
      have hle := h.le
      obtain rfl := List.mem_singleton.mp (List.mem_of_getElem? hi)
      exact ⟨fun hdone => (by cases hdone), fun hlt => absurd hlt (by omega)⟩
  sent     := by
    have hlen : n ≤ s.requests.length := by simpa [System.requests] using h.le
    have hrequests : (s.step (.call request)).1.requests = s.requests ++ [request] := by
      simp [System.step, System.requests]
    rw [sentFor_append, hrequests, List.take_append_of_le_length hlen, ← h.sent]
    exact List.append_nil _
  le       := by
    have hle := h.le
    simp only [System.step, List.length_append, List.length_singleton]
    omega

theorem fedEffects_snoc (mapper : SymbolMapper) (acts : List FeedAction) (a : FeedAction) :
    fedEffects mapper (acts ++ [a]) = fedEffects mapper acts ++ (feedStep mapper (fed mapper acts) a).2 := by
  unfold fedEffects
  rw [Machine.run_append_outputs, Machine.run_cons, Machine.run_nil, List.append_nil]
  rfl

theorem Orderly.noRace {s : System} {st : Step} (h : Orderly s (.step st)) : NoRace s (.step st) := by
  cases st with
  | check c => exact h
  | store c => trivial
  | send c => trivial
  | iterate b expired => trivial
  | close b => trivial

/-- A new builder is one for the key of a task. -/
theorem keys_for {key : Key} {s : System} (hkeys : ∀ k ∈ s.keys, k = key) (htasks : TasksFor key s) (a : Action) :
    ∀ k ∈ (s.step a).1.keys, k = key := by
  rcases keys_step s a with hsame | ⟨call, hcall, hmore⟩
  · exact hsame.symm ▸ hkeys
  · obtain ⟨u, hrequest, hu⟩ := htasks _ (List.mem_map_of_mem hcall)
    have hcallKey : call.request.key = key := by rw [hrequest, ← hu]; rfl
    intro k hk
    rw [hmore, List.mem_append, List.mem_singleton] at hk
    exact hk.elim (hkeys k) fun heq => heq.trans hcallKey

/-- **The invariant of an orderly run** over messages for one key. -/
theorem inOrder_fed {mapper : SymbolMapper} {key : Key} {acts : List FeedAction}
    (hkey : ∀ message ∈ messages acts, ∀ u, processBinanceOrderbook mapper message = some u → keyOf u = key)
    (hguard : Machine.Guarded (feedStep mapper) Orderly .new acts) :
    Exclusive (fed mapper acts) ∧ Delivered (fed mapper acts) (fedEffects mapper acts) ∧
      (∀ k ∈ (fed mapper acts).keys, k = key) ∧ ∃ n, InOrder key n (fed mapper acts) (fedEffects mapper acts) := by
  induction acts using List.reverseRecOn with
  | nil =>
      exact ⟨exclusive_new, delivered_new, by simp [fed, System.new, System.keys], 0,
        ⟨by simp [fed, System.new], rfl, le_rfl⟩⟩
  | append_singleton acts a ih =>
      obtain ⟨hacts, ha, _⟩ := Machine.guarded_append.mp hguard
      have hearlier : ∀ message ∈ messages acts, message ∈ messages (acts ++ [a]) := by
        intro message hmessage
        rw [messages, List.filterMap_append]
        exact List.mem_append_left _ hmessage
      obtain ⟨hexclusive, hdelivered, hkeys, n, hinOrder⟩ :=
        ih (fun message hm => hkey message (hearlier message hm)) hacts
      rw [fed_snoc, fedEffects_snoc]
      cases a with
      | step st =>
          have hrace : NoRace (fed mapper acts) (.step st) := Orderly.noRace ha
          have htasks := tasks_fed fun message hm => hkey message (hearlier message hm)
          exact ⟨hexclusive.step hrace, hdelivered.step hexclusive hrace, keys_for hkeys htasks (.step st),
            hinOrder.step hexclusive.owned hdelivered htasks ha⟩
      | handIn message =>
          cases hupdate : processBinanceOrderbook mapper message with
          | none =>
              rw [feedStep_skips hupdate, List.append_nil]
              exact ⟨hexclusive, hdelivered, hkeys, n, hinOrder⟩
          | some update =>
              have hrace : NoRace (fed mapper acts) (.call (.trySendUpdate update)) := trivial
              rw [feedStep_spawns hupdate]
              exact ⟨hexclusive.step hrace, hdelivered.step hexclusive hrace, hkeys, n, hinOrder.called _⟩

/-- A mapped message with levels is handed on. -/
theorem processBinanceOrderbook_eq {mapper : SymbolMapper} {symbol common : String} {message : Message}
    (hmapped : mapper.map "Binance" symbol = some common) (h : HasLevels symbol message) :
    processBinanceOrderbook mapper message = some (updateOf common message) := by
  obtain ⟨rfl, hlevels⟩ := h
  unfold processBinanceOrderbook
  rw [hmapped]
  apply if_neg
  rcases hlevels with hbids | hasks
  · simp [updateOf, hbids]
  · simp [updateOf, hasks]

/-- **The builder gets the updates as they were handed in.** In an orderly run over messages of one symbol there is
    at most one builder, and what it has received and what waits in its channel is a front part of what has been
    handed in; it is all of it when every task is done. -/
theorem delivered_in_receipt_order {mapper : SymbolMapper} {symbol common : String} {acts : List FeedAction}
    (hmapped : mapper.map "Binance" symbol = some common) (hmessages : ∀ m ∈ messages acts, HasLevels symbol m)
    (hguard : Machine.Guarded (feedStep mapper) Orderly .new acts) :
    (fed mapper acts).spawned.length ≤ 1 ∧
    (∀ b task, (fed mapper acts).spawned[b]? = some task →
      receivedBy b (fedEffects mapper acts) ++ task.loop.channel <+: (messages acts).map (updateOf common)) ∧
    ((∀ call ∈ (fed mapper acts).calls, call.phase = .done) → messages acts ≠ [] →
      ∃ task, (fed mapper acts).spawned = [task] ∧
        receivedBy 0 (fedEffects mapper acts) ++ task.loop.channel = (messages acts).map (updateOf common)) := by
  have hupdates : (messages acts).filterMap (processBinanceOrderbook mapper)
      = (messages acts).map (updateOf common) := by
    rw [← List.filterMap_eq_map]
    exact List.filterMap_congr fun m hm => processBinanceOrderbook_eq hmapped (hmessages m hm)
  have hkey : ∀ m ∈ messages acts, ∀ u, processBinanceOrderbook mapper m = some u → keyOf u = (.binance, common) := by
    intro m hm u hu
    rw [processBinanceOrderbook_eq hmapped (hmessages m hm)] at hu
    obtain rfl := Option.some.inj hu
    rfl
  obtain ⟨hexclusive, hdelivered, hkeys, n, hinOrder⟩ := inOrder_fed hkey hguard
  have hrequests := requests_fed mapper acts
  rw [hupdates] at hrequests
  have hsent : sentFor (.binance, common) (fedEffects mapper acts)
      = ((messages acts).map (updateOf common)).take n := by
    rw [hinOrder.sent, hrequests, ← List.map_take, List.filterMap_map]
    exact List.filterMap_some
  have harrived : ∀ b task, (fed mapper acts).spawned[b]? = some task →
      receivedBy b (fedEffects mapper acts) ++ task.loop.channel
        = ((messages acts).map (updateOf common)).take n := by
    intro b task htask
    rw [hdelivered.arrived b task htask, hkeys _ (List.mem_of_getElem? (key_of_spawned htask)), hsent]
  have hone : (fed mapper acts).spawned.length ≤ 1 := by
    have hnodup := hexclusive.nodup
    rw [List.eq_replicate_of_mem hkeys, List.nodup_replicate] at hnodup
    simpa [System.keys] using hnodup
  refine ⟨hone, fun b task htask => harrived b task htask ▸ List.take_prefix _ _, ?_⟩
  intro hdone hsome
  -- every task is done, so everything has been sent
  have hcalls : (fed mapper acts).calls.length = ((messages acts).map (updateOf common)).length := by
    have hlen := congrArg List.length hrequests
    simpa [System.requests] using hlen
  have hall : n = ((messages acts).map (updateOf common)).length := by
    by_contra hne
    have hlt : n < (fed mapper acts).calls.length := by
      have hle := hinOrder.le
      omega
    have hnth := List.getElem?_eq_getElem hlt
    exact Nat.lt_irrefl n ((hinOrder.finished n _ hnth).mp (hdone _ (List.mem_of_getElem? hnth)))
  rw [hall, List.take_length] at hsent
  have hmem : (.binance, common) ∈ (fed mapper acts).keys := by
    by_contra hfresh
    rw [hdelivered.unsent _ hfresh] at hsent
    exact hsome (List.map_eq_nil_iff.mp hsent.symm)
  obtain ⟨task, htask, _⟩ := List.mem_map.mp hmem
  obtain ⟨only, honly⟩ := List.length_eq_one_iff.mp (le_antisymm hone (List.length_pos_of_mem htask))
  refine ⟨only, honly, ?_⟩
  rw [harrived 0 only (by rw [honly]; rfl), hall, List.take_length]

def oneSymbol : SymbolMapper := { exchanges := [("Binance", [("BTCUSDT", "BTC-USD")])] }

/-- A diff with one bid. -/
def bidMessage (updateId : Nat) : Message where
  data       := .object [("u", .ofNat updateId), ("E", .ofNat 0), ("b", .array [.array [.string "100", .string "1"]])]
  symbol     := "BTCUSDT"
  streamName := "btcusdt@depth@100ms"
  now        := 0

/-- The second task checks after the first has stored, and sends after it. -/
def inTurn : List FeedAction :=
  [.handIn (bidMessage 1), .handIn (bidMessage 2), .step (.check 0), .step (.store 0), .step (.check 1),
    .step (.send 0), .step (.send 1), .step (.iterate 0 false)]

theorem inTurn_delivered :
    ∃ task, (fed oneSymbol inTurn).spawned = [task] ∧
      receivedBy 0 (fedEffects oneSymbol inTurn) ++ task.loop.channel
        = [updateOf "BTC-USD" (bidMessage 1), updateOf "BTC-USD" (bidMessage 2)] := by
  have hmessages : ∀ m ∈ messages inTurn, HasLevels "BTCUSDT" m := by
    intro m hm
    rcases List.mem_cons.mp hm with rfl | hm
    · exact ⟨rfl, Or.inl (by decide +kernel)⟩
    · obtain rfl := List.mem_singleton.mp hm
      exact ⟨rfl, Or.inl (by decide +kernel)⟩
  have hguard : Machine.Guarded (feedStep oneSymbol) Orderly .new inTurn := by decide +kernel
  have hdone : ∀ call ∈ (fed oneSymbol inTurn).calls, call.phase = .done := by decide +kernel
  exact (delivered_in_receipt_order (by decide +kernel) hmessages hguard).2.2 hdone (by simp [messages, inTurn,
    FeedAction.message?])

/-- The second task is faster. -/
def overtaken : List FeedAction :=
  [.handIn (bidMessage 1), .handIn (bidMessage 2), .step (.check 0), .step (.store 0), .step (.check 1),
    .step (.send 1), .step (.send 0)]

/-- **One task overtakes another**, and the builder's channel holds the updates the wrong way round. -/
theorem overtaken_reordered :
    (∀ call ∈ (fed oneSymbol overtaken).calls, call.phase = .done) ∧
    (messages overtaken).map (fun m => updateIdOf m.data) = [1, 2] ∧
    (fed oneSymbol overtaken).spawned.map (fun task => task.loop.channel.map OrderBookUpdate.updateId) = [[2, 1]] := by
  refine ⟨by decide +kernel, by decide +kernel, by decide +kernel⟩

end Manager
end TradingPlatform
