import TradingPlatform.Library.Machine
import Mathlib.Logic.Function.Basic

/-!
# `Library.FanIn` — many producers, one collector, and bounded channels between them

Each producer has a channel of its own. A forwarder takes what is in it, one item at a time, wraps it and puts it into
the channel all of them share, which a consumer empties. Whoever finds a channel full waits, so nothing is turned away.
All of them run interleaved, in any order.

What a producer has made is consumed, or in flight, in the order it was made (`step_flight`), and everything in flight
can still be consumed (`exists_drain`).
-/

namespace FanIn

open Machine

variable {ι α β τ : Type*}

/-- What waits where. A wrapped item in the shared channel is listed with its producer. -/
structure State (ι α β : Type*) where
  /-- made, and not yet handed over -/
  outbox    : ι → List α
  channel   : ι → List α
  /-- in the hands of the forwarder -/
  held      : ι → Option β
  collector : List (ι × β)

def State.empty : State ι α β := { outbox := fun _ => [], channel := fun _ => [], held := fun _ => none, collector := [] }

inductive Action (ι α τ : Type*) where
  | produce (i : ι) (items : List α)
  | handOver (i : ι)
  | forward (i : ι) (stamp : τ)
  | collect (i : ι)
  | consume
  /-- Producers end; what they have not handed over is gone. -/
  | drop (ended : ι → Bool)

section Step

variable [DecidableEq ι] (channelCapacity collectorCapacity : Nat) (wrap : ι → τ → α → β)

def step (s : State ι α β) : Action ι α τ → State ι α β × List (ι × β)
  | .produce i items => ({ s with outbox := Function.update s.outbox i (s.outbox i ++ items) }, [])
  | .handOver i      =>
    match s.outbox i with
    | []           => (s, [])
    | item :: rest =>
      if (s.channel i).length < channelCapacity then
        ({ s with outbox := Function.update s.outbox i rest
                  channel := Function.update s.channel i (s.channel i ++ [item]) }, [])
      else (s, [])
  | .forward i stamp =>
    match s.held i, s.channel i with
    | none, item :: rest =>
        ({ s with channel := Function.update s.channel i rest
                  held := Function.update s.held i (some (wrap i stamp item)) }, [])
    | _, _ => (s, [])
  | .collect i       =>
    match s.held i with
    | none      => (s, [])
    | some item =>
      if s.collector.length < collectorCapacity then
        ({ s with held := Function.update s.held i none, collector := s.collector ++ [(i, item)] }, [])
      else (s, [])
  | .consume         =>
    match s.collector with
    | []           => (s, [])
    | item :: rest => ({ s with collector := rest }, [item])
  | .drop ended      => ({ s with outbox := fun i => if ended i then [] else s.outbox i }, [])

end Step

/-- The channels are as full as they may be. -/
structure Bounded (channelCapacity collectorCapacity : Nat) (s : State ι α β) : Prop where
  channel   : ∀ i, (s.channel i).length ≤ channelCapacity
  collector : s.collector.length ≤ collectorCapacity

theorem Bounded.empty (channelCapacity collectorCapacity : Nat) :
    Bounded channelCapacity collectorCapacity (State.empty : State ι α β) := ⟨fun _ => Nat.zero_le _, Nat.zero_le _⟩

/-- Nothing of the producer is on its way any more. -/
structure Idle (s : State ι α β) (i : ι) : Prop where
  outbox  : s.outbox i = []
  channel : s.channel i = []
  held    : s.held i = none

/-- Nothing about the producer has changed. -/
structure Same (s s' : State ι α β) (i : ι) : Prop where
  outbox  : s'.outbox i = s.outbox i
  channel : s'.channel i = s.channel i
  held    : s'.held i = s.held i

theorem Idle.same {s s' : State ι α β} {i : ι} (h : Idle s i) (hsame : Same s s' i) : Idle s' i :=
  ⟨hsame.outbox.trans h.outbox, hsame.channel.trans h.channel, hsame.held.trans h.held⟩

theorem Same.trans {s s' s'' : State ι α β} {i : ι} (h : Same s s' i) (h' : Same s' s'' i) : Same s s'' i :=
  ⟨h'.outbox.trans h.outbox, h'.channel.trans h.channel, h'.held.trans h.held⟩

/-! ## In flight -/

section Flight

variable [DecidableEq ι] (unwrap : β → α)

/-- The items of a producer among these, unwrapped. -/
def itemsOf (i : ι) (items : List (ι × β)) : List α := (items.filter fun item => item.1 = i).map fun item => unwrap item.2

/-- What a producer has on its way, the oldest first. -/
def flight (s : State ι α β) (i : ι) : List α :=
  itemsOf unwrap i s.collector ++ ((s.held i).map unwrap).toList ++ s.channel i ++ s.outbox i

/-- What a step makes, and what it loses. -/
def Action.made (i : ι) : Action ι α τ → List α
  | .produce j items => if j = i then items else []
  | _                => []

def Action.lost (s : State ι α β) (i : ι) : Action ι α τ → List α
  | .drop ended => if ended i then s.outbox i else []
  | _           => []

variable {unwrap}

theorem itemsOf_append (i : ι) (items later : List (ι × β)) :
    itemsOf unwrap i (items ++ later) = itemsOf unwrap i items ++ itemsOf unwrap i later := by
  unfold itemsOf
  rw [List.filter_append, List.map_append]

theorem itemsOf_self (i : ι) (item : β) : itemsOf unwrap i [(i, item)] = [unwrap item] := by simp [itemsOf]

theorem itemsOf_other {i j : ι} (h : j ≠ i) (item : β) : itemsOf unwrap i [(j, item)] = [] := by simp [itemsOf, h]

theorem flight_eq_nil {s : State ι α β} {i : ι} (h : Idle s i) (hcollector : s.collector = []) :
    flight unwrap s i = [] := by
  unfold flight
  rw [hcollector, h.held, h.channel, h.outbox]
  rfl

variable {channelCapacity collectorCapacity : Nat} {wrap : ι → τ → α → β}

/-- What one step can do. -/
inductive Moved (channelCapacity collectorCapacity : Nat) (wrap : ι → τ → α → β) (s : State ι α β) :
    Action ι α τ → State ι α β → List (ι × β) → Prop where
  | produced (i : ι) (items : List α) :
      Moved channelCapacity collectorCapacity wrap s (.produce i items)
        { s with outbox := Function.update s.outbox i (s.outbox i ++ items) } []
  | handed (i : ι) (item : α) (rest : List α) (houtbox : s.outbox i = item :: rest)
      (hroom : (s.channel i).length < channelCapacity) :
      Moved channelCapacity collectorCapacity wrap s (.handOver i)
        { s with outbox := Function.update s.outbox i rest
                 channel := Function.update s.channel i (s.channel i ++ [item]) } []
  | forwarded (i : ι) (stamp : τ) (item : α) (rest : List α) (hheld : s.held i = none)
      (hchannel : s.channel i = item :: rest) :
      Moved channelCapacity collectorCapacity wrap s (.forward i stamp)
        { s with channel := Function.update s.channel i rest
                 held := Function.update s.held i (some (wrap i stamp item)) } []
  | collected (i : ι) (item : β) (hheld : s.held i = some item) (hroom : s.collector.length < collectorCapacity) :
      Moved channelCapacity collectorCapacity wrap s (.collect i)
        { s with held := Function.update s.held i none, collector := s.collector ++ [(i, item)] } []
  | consumed (item : ι × β) (rest : List (ι × β)) (hcollector : s.collector = item :: rest) :
      Moved channelCapacity collectorCapacity wrap s .consume { s with collector := rest } [item]
  | dropped (ended : ι → Bool) :
      Moved channelCapacity collectorCapacity wrap s (.drop ended)
        { s with outbox := fun i => if ended i then [] else s.outbox i } []
  /-- There is nothing to take, or no room for it. -/
  | waits (action : Action ι α τ) (hmade : ∀ i, action.made i = []) (hlost : ∀ i, action.lost s i = []) :
      Moved channelCapacity collectorCapacity wrap s action s []

variable (channelCapacity collectorCapacity wrap) in
/-- **Every step is one of these.** -/
theorem moved_step (s : State ι α β) (action : Action ι α τ) :
    Moved channelCapacity collectorCapacity wrap s action (step channelCapacity collectorCapacity wrap s action).1
      (step channelCapacity collectorCapacity wrap s action).2 := by
  cases action with
  | produce i items => exact .produced i items
  | handOver i =>
      unfold step
      dsimp only
      split
      · exact .waits _ (fun _ => rfl) fun _ => rfl
      next item rest houtbox =>
        split
        next hroom => exact .handed i item rest houtbox hroom
        next => exact .waits _ (fun _ => rfl) fun _ => rfl
  | forward i stamp =>
      unfold step
      dsimp only
      split
      next item rest hheld hchannel => exact .forwarded i stamp item rest hheld hchannel
      next => exact .waits _ (fun _ => rfl) fun _ => rfl
  | collect i =>
      unfold step
      dsimp only
      split
      · exact .waits _ (fun _ => rfl) fun _ => rfl
      next item hheld =>
        split
        next hroom => exact .collected i item hheld hroom
        next => exact .waits _ (fun _ => rfl) fun _ => rfl
  | consume =>
      unfold step
      dsimp only
      split
      · exact .waits _ (fun _ => rfl) fun _ => rfl
      next item rest hcollector => exact .consumed item rest hcollector
  | drop ended => exact .dropped ended

variable (channelCapacity collectorCapacity) in
/-- **One step.** What is consumed of a producer, and what it then has in flight or has lost, is what it had in flight
    and what it made. -/
theorem step_flight (hwrap : ∀ i stamp item, unwrap (wrap i stamp item) = item) (s : State ι α β)
    (action : Action ι α τ) (i : ι) :
    itemsOf unwrap i (step channelCapacity collectorCapacity wrap s action).2
        ++ flight unwrap (step channelCapacity collectorCapacity wrap s action).1 i ++ action.lost s i
      = flight unwrap s i ++ action.made i := by
  have hmoved := moved_step channelCapacity collectorCapacity wrap s action
  generalize (step channelCapacity collectorCapacity wrap s action).1 = s' at hmoved
  generalize (step channelCapacity collectorCapacity wrap s action).2 = out at hmoved
  unfold flight
  cases hmoved with
  | produced j items =>
      by_cases h : j = i
      · subst h
        simp [itemsOf, Action.made, Action.lost]
      · simp [itemsOf, Action.made, Action.lost, Function.update_of_ne (Ne.symm h), h]
  | handed j item rest houtbox _ =>
      by_cases h : j = i
      · subst h
        simp [itemsOf, Action.made, Action.lost, houtbox]
      · simp [itemsOf, Action.made, Action.lost, Function.update_of_ne (Ne.symm h)]
  | forwarded j stamp item rest hheld hchannel =>
      by_cases h : j = i
      · subst h
        simp [itemsOf, Action.made, Action.lost, hheld, hchannel, hwrap]
      · simp [itemsOf, Action.made, Action.lost, Function.update_of_ne (Ne.symm h)]
  | collected j item hheld _ =>
      by_cases h : j = i
      · subst h
        simp [itemsOf, Action.made, Action.lost, hheld]
      · simp [itemsOf, Action.made, Action.lost, Function.update_of_ne (Ne.symm h), h]
  | consumed item rest hcollector =>
      rw [hcollector, show item :: rest = [item] ++ rest from rfl, itemsOf_append]
      simp [Action.made, Action.lost]
  | dropped ended => cases h : ended i <;> simp [itemsOf, Action.made, Action.lost, h]
  | waits _ hmade hlost => simp [itemsOf, hmade, hlost]

/-- A channel that is set anew and has room stays within its bound. -/
theorem Bounded.update {s : State ι α β} (h : Bounded channelCapacity collectorCapacity s) {i : ι} {items : List α}
    (hitems : items.length ≤ channelCapacity) (j : ι) :
    (Function.update s.channel i items j).length ≤ channelCapacity := by
  by_cases hj : j = i
  · rw [hj, Function.update_self]
    exact hitems
  · rw [Function.update_of_ne hj]
    exact h.channel j

theorem Bounded.step {s : State ι α β} (h : Bounded channelCapacity collectorCapacity s) (action : Action ι α τ) :
    Bounded channelCapacity collectorCapacity (FanIn.step channelCapacity collectorCapacity wrap s action).1 := by
  have hmoved := moved_step channelCapacity collectorCapacity wrap s action
  generalize (FanIn.step channelCapacity collectorCapacity wrap s action).1 = s' at hmoved
  generalize (FanIn.step channelCapacity collectorCapacity wrap s action).2 = out at hmoved
  cases hmoved with
  | produced j items => exact ⟨h.channel, h.collector⟩
  | handed j item rest _ hroom => exact ⟨h.update (by rw [List.length_append]; exact hroom), h.collector⟩
  | forwarded j stamp item rest _ hchannel =>
      have hj := h.channel j
      rw [hchannel, List.length_cons] at hj
      exact ⟨h.update (by omega), h.collector⟩
  | collected j item _ hroom => exact ⟨h.channel, by rw [List.length_append]; exact hroom⟩
  | consumed item rest hcollector =>
      have hle := h.collector
      rw [hcollector, List.length_cons] at hle
      exact ⟨h.channel, by dsimp only; omega⟩
  | dropped ended => exact ⟨h.channel, h.collector⟩
  | waits => exact h

variable (channelCapacity collectorCapacity wrap) in
/-- What the producer has not handed over becomes less, as long as it makes nothing. -/
theorem outbox_step {action : Action ι α τ} {i : ι} (hmade : action.made i = []) (s : State ι α β) :
    (step channelCapacity collectorCapacity wrap s action).1.outbox i <:+ s.outbox i := by
  have hmoved := moved_step channelCapacity collectorCapacity wrap s action
  generalize (step channelCapacity collectorCapacity wrap s action).1 = s' at hmoved
  generalize (step channelCapacity collectorCapacity wrap s action).2 = out at hmoved
  cases hmoved with
  | produced j items =>
      by_cases h : i = j
      · subst h
        obtain rfl : items = [] := by simpa [Action.made] using hmade
        simp
      · simp [Function.update_of_ne h]
  | handed j item rest houtbox _ =>
      by_cases h : i = j
      · subst h
        simp [houtbox]
      · simp [Function.update_of_ne h]
  | dropped ended => cases h : ended i <;> simp [h]
  | _ => exact List.suffix_refl _

/-- A producer that has nothing on its way and makes nothing stays so. -/
theorem Idle.step {s : State ι α β} {i : ι} (h : Idle s i) {action : Action ι α τ} (hmade : action.made i = []) :
    Idle (FanIn.step channelCapacity collectorCapacity wrap s action).1 i := by
  have hmoved := moved_step channelCapacity collectorCapacity wrap s action
  have houtbox := outbox_step channelCapacity collectorCapacity wrap hmade s
  generalize (FanIn.step channelCapacity collectorCapacity wrap s action).1 = s' at hmoved houtbox
  generalize (FanIn.step channelCapacity collectorCapacity wrap s action).2 = out at hmoved
  have hempty : s'.outbox i = [] := List.suffix_nil.mp (h.outbox ▸ houtbox)
  cases hmoved with
  | handed j item rest hsome _ =>
      have hother : i ≠ j := by
        rintro rfl
        rw [h.outbox] at hsome
        cases hsome
      exact ⟨hempty, (Function.update_of_ne hother ..).trans h.channel, h.held⟩
  | forwarded j stamp item rest _ hsome =>
      have hother : i ≠ j := by
        rintro rfl
        rw [h.channel] at hsome
        cases hsome
      exact ⟨hempty, (Function.update_of_ne hother ..).trans h.channel, (Function.update_of_ne hother ..).trans h.held⟩
  | collected j item hsome _ =>
      have hother : i ≠ j := by
        rintro rfl
        rw [h.held] at hsome
        cases hsome
      exact ⟨hempty, h.channel, (Function.update_of_ne hother ..).trans h.held⟩
  | _ => exact ⟨hempty, h.channel, h.held⟩

/-- Every wrapped item has a property that its producer gives it. -/
structure Labelled (label : ι → β → Prop) (s : State ι α β) : Prop where
  held      : ∀ i item, s.held i = some item → label i item
  collector : ∀ entry ∈ s.collector, label entry.1 entry.2

/-- A wrapped item that is set anew, with its property. -/
theorem Labelled.update {label : ι → β → Prop} {s : State ι α β} (h : Labelled label s) {i : ι} {held : Option β}
    (hheld : ∀ item, held = some item → label i item) (j : ι) (item : β)
    (hitem : Function.update s.held i held j = some item) : label j item := by
  by_cases hj : j = i
  · subst hj
    rw [Function.update_self] at hitem
    exact hheld item hitem
  · rw [Function.update_of_ne hj] at hitem
    exact h.held j item hitem

variable (channelCapacity collectorCapacity) in
theorem Labelled.step {label : ι → β → Prop} {s : State ι α β} (h : Labelled label s)
    (hwrap : ∀ i stamp item, item ∈ s.channel i → label i (wrap i stamp item)) (action : Action ι α τ) :
    Labelled label (FanIn.step channelCapacity collectorCapacity wrap s action).1 ∧
    ∀ entry ∈ (FanIn.step channelCapacity collectorCapacity wrap s action).2, label entry.1 entry.2 := by
  have hmoved := moved_step channelCapacity collectorCapacity wrap s action
  generalize (FanIn.step channelCapacity collectorCapacity wrap s action).1 = s' at hmoved
  generalize (FanIn.step channelCapacity collectorCapacity wrap s action).2 = out at hmoved
  cases hmoved with
  | forwarded j stamp item rest _ hchannel =>
      refine ⟨⟨h.update ?_, h.collector⟩, nofun⟩
      rintro _ ⟨⟩
      exact hwrap j stamp item (hchannel ▸ List.mem_cons_self)
  | collected j item hheld _ =>
      refine ⟨⟨h.update nofun, ?_⟩, nofun⟩
      intro entry hentry
      rcases List.mem_append.mp hentry with hentry | hentry
      · exact h.collector entry hentry
      · obtain rfl := List.mem_singleton.mp hentry
        exact h.held j item hheld
  | consumed entry rest hcollector =>
      have hall := h.collector
      rw [hcollector] at hall
      refine ⟨⟨h.held, fun other hother => hall other (List.mem_cons_of_mem _ hother)⟩, ?_⟩
      intro other hother
      obtain rfl := List.mem_singleton.mp hother
      exact hall other List.mem_cons_self
  | _ => exact ⟨⟨h.held, h.collector⟩, nofun⟩

/-! ## Draining -/

/-- The steps of the forwarders and the consumer, and handing over. -/
def Action.Drains : Action ι α τ → Prop
  | .produce .. | .drop _ => False
  | _                     => True

/-- A state that draining leads to. -/
def Leads (channelCapacity collectorCapacity : Nat) (wrap : ι → τ → α → β) (s s' : State ι α β) : Prop :=
  ∃ actions : List (Action ι α τ), (∀ action ∈ actions, action.Drains) ∧
    (run (step channelCapacity collectorCapacity wrap) s actions).1 = s'

theorem Leads.refl (s : State ι α β) : Leads channelCapacity collectorCapacity wrap s s := ⟨[], nofun, rfl⟩

theorem Leads.trans {s s' s'' : State ι α β} (h : Leads channelCapacity collectorCapacity wrap s s')
    (h' : Leads channelCapacity collectorCapacity wrap s' s'') :
    Leads channelCapacity collectorCapacity wrap s s'' := by
  obtain ⟨actions, hactions, rfl⟩ := h
  obtain ⟨later, hlater, rfl⟩ := h'
  refine ⟨actions ++ later, fun action hmem => ?_, run_append_state ..⟩
  rcases List.mem_append.mp hmem with hmem | hmem
  · exact hactions action hmem
  · exact hlater action hmem

theorem Leads.one {s : State ι α β} (action : Action ι α τ) (hdrains : action.Drains) {s' : State ι α β}
    (h : (step channelCapacity collectorCapacity wrap s action).1 = s') :
    Leads channelCapacity collectorCapacity wrap s s' :=
  ⟨[action], by simpa using hdrains, h⟩

/-- The consumer empties the collector. -/
theorem leads_collector (s : State ι α β) :
    Leads channelCapacity collectorCapacity wrap s { s with collector := [] } := by
  obtain ⟨outbox, channel, held, collector⟩ := s
  induction collector with
  | nil => exact .refl _
  | cons item rest ih => exact (Leads.one .consume trivial rfl).trans ih

/-- A producer alone is drained. -/
theorem leads_idle (hchannel : 0 < channelCapacity) (hcollector : 0 < collectorCapacity) (stamp : τ) (i : ι)
    (s : State ι α β) (hempty : s.collector = []) :
    ∃ s', Leads channelCapacity collectorCapacity wrap s s' ∧ s'.collector = [] ∧ Idle s' i ∧
      ∀ j, j ≠ i → Same s s' j := by
  -- what is still to be moved, counted by how far it has to go
  generalize hweight : 3 * (s.outbox i).length + 2 * (s.channel i).length + (s.held i).toList.length = weight
  induction weight using Nat.strongRecOn generalizing s with
  | ind weight ih =>
      have hnext : ∀ s₁, Leads channelCapacity collectorCapacity wrap s s₁ → s₁.collector = [] →
          (∀ j, j ≠ i → Same s s₁ j) →
          3 * (s₁.outbox i).length + 2 * (s₁.channel i).length + (s₁.held i).toList.length < weight →
          ∃ s', Leads channelCapacity collectorCapacity wrap s s' ∧ s'.collector = [] ∧ Idle s' i ∧
            ∀ j, j ≠ i → Same s s' j := by
        intro s₁ hleads hempty₁ hsame hless
        obtain ⟨s', hleads', hempty', hidle, hsame'⟩ := ih _ hless s₁ hempty₁ rfl
        exact ⟨s', hleads.trans hleads', hempty', hidle, fun j hj => (hsame j hj).trans (hsame' j hj)⟩
      cases hheld : s.held i with
      | some item =>
          -- collected and consumed
          have hcollect : (step channelCapacity collectorCapacity wrap s (.collect i)).1
              = { s with held := Function.update s.held i none, collector := [(i, item)] } := by
            simp [step, hheld, hempty, hcollector]
          refine hnext _ ((Leads.one (.collect i) trivial hcollect).trans (leads_collector _)) rfl ?_ ?_
          · exact fun j hj => ⟨rfl, rfl, Function.update_of_ne hj ..⟩
          · rw [← hweight, hheld]
            simp
      | none =>
          cases hqueue : s.channel i with
          | cons item rest =>
              have hforward : (step channelCapacity collectorCapacity wrap s (.forward i stamp)).1
                  = { s with channel := Function.update s.channel i rest
                             held := Function.update s.held i (some (wrap i stamp item)) } := by
                simp [step, hheld, hqueue]
              refine hnext _ (Leads.one (.forward i stamp) trivial hforward) hempty ?_ ?_
              · exact fun j hj => ⟨rfl, Function.update_of_ne hj .., Function.update_of_ne hj ..⟩
              · rw [← hweight, hheld, hqueue]
                simp
                omega
          | nil =>
              cases houtbox : s.outbox i with
              | nil => exact ⟨s, .refl s, hempty, ⟨houtbox, hqueue, hheld⟩, fun j _ => ⟨rfl, rfl, rfl⟩⟩
              | cons item rest =>
                  have hhand : (step channelCapacity collectorCapacity wrap s (.handOver i)).1
                      = { s with outbox := Function.update s.outbox i rest
                                 channel := Function.update s.channel i [item] } := by
                    simp [step, houtbox, hqueue, hchannel]
                  refine hnext _ (Leads.one (.handOver i) trivial hhand) hempty ?_ ?_
                  · exact fun j hj => ⟨Function.update_of_ne hj .., Function.update_of_ne hj .., rfl⟩
                  · rw [← hweight, hheld, hqueue, houtbox]
                    simp
                    omega

variable (wrap) in
/-- **Whatever is in flight can be consumed**, of all producers that have anything. -/
theorem exists_drain (hchannel : 0 < channelCapacity) (hcollector : 0 < collectorCapacity) (stamp : τ)
    (s : State ι α β) {producers : List ι} (hall : ∀ i, i ∉ producers → Idle s i) :
    ∃ s', Leads channelCapacity collectorCapacity wrap s s' ∧ s'.collector = [] ∧ ∀ i, Idle s' i := by
  suffices h : ∀ (s : State ι α β), s.collector = [] → (∀ i, i ∉ producers → Idle s i) →
      ∃ s', Leads channelCapacity collectorCapacity wrap s s' ∧ s'.collector = [] ∧ ∀ i, Idle s' i by
    obtain ⟨s', hleads, hdrained⟩ := h { s with collector := [] } rfl fun i hi => ⟨(hall i hi).outbox,
      (hall i hi).channel, (hall i hi).held⟩
    exact ⟨s', (leads_collector s).trans hleads, hdrained⟩
  clear hall s
  intro s hempty hall
  induction producers generalizing s with
  | nil => exact ⟨s, .refl s, hempty, fun i => hall i List.not_mem_nil⟩
  | cons i producers ih =>
      obtain ⟨s₁, hleads, hempty₁, hidle, hsame⟩ := leads_idle hchannel hcollector stamp i s hempty
      obtain ⟨s', hleads', hdrained⟩ := ih s₁ hempty₁ fun j hj => by
        by_cases heq : j = i
        · exact heq ▸ hidle
        · exact (hall j (by simp [heq, hj])).same (hsame j heq)
      exact ⟨s', hleads.trans hleads', hdrained⟩

end Flight

end FanIn
