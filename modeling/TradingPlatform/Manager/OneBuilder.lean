import TradingPlatform.Manager.Manager

/-!
# `Manager.OneBuilder` — one builder for each key

Between the check and the insertion a call holds no lock. Two calls that both check before either has inserted
spawn two builders for one key. A run in which no check fails while another call is between the two has one
builder for each key, and the updates sent for the key arrive there in the order their sends complete; and a run
with one builder for each key is of this kind (`one_builder_per_key_iff`).
-/

namespace TradingPlatform
namespace Manager

open Market

/-! ## Statements -/

/-- The updates a builder has received, in order. -/
def receivedBy (b : Nat) (out : List Effect) : List OrderBookUpdate :=
  out.filterMap fun
    | .builder b' e => if b' = b then e.received? else none
    | _             => none

/-- The updates whose sends for this key have completed, in that order. -/
def sentFor (key : Key) (out : List Effect) : List OrderBookUpdate :=
  out.filterMap fun
    | .sent _ _ u => if keyOf u = key then some u else none
    | _           => none

/-- **One builder for each key**: no two tasks have been spawned for it, and what has been sent for it is what the
    builder has received and what waits in its channel. -/
def OneBuilderPerKey (s : System) (out : List Effect) : Prop :=
  s.keys.Nodup ∧ ∀ b task, s.spawned[b]? = some task → receivedBy b out ++ task.loop.channel = sentFor task.key out

/-- A check that finds no builder finds no other call for the key that has spawned one and not yet stored it. -/
def NoRace (s : System) : Action → Prop
  | .step (.check c) =>
      ∀ call ∈ s.calls[c]?, call.phase = .called → s.builders call.request.key = none →
        ∀ other ∈ s.calls, other.phase.isCreated = true → other.request.key ≠ call.request.key
  | _ => True

instance NoRace.decidable (s : System) : (a : Action) → Decidable (NoRace s a)
  | .step (.check c) => inferInstanceAs (Decidable (∀ call ∈ s.calls[c]?, call.phase = .called →
      s.builders call.request.key = none →
        ∀ other ∈ s.calls, other.phase.isCreated = true → other.request.key ≠ call.request.key))
  | .step (.store _) => isTrue trivial
  | .step (.send _) => isTrue trivial
  | .step (.iterate ..) => isTrue trivial
  | .step (.close _) => isTrue trivial
  | .call _ => isTrue trivial

/-! ## Who holds which builder -/

/-- Every sender in the map or with a call leads to a builder of the right key. -/
structure Owned (s : System) : Prop where
  stored : ∀ key b, s.builders key = some b → s.keys[b]? = some key
  sender : ∀ call ∈ s.calls, ∀ b, call.phase.builder? = some b → s.keys[b]? = some call.request.key

@[simp] theorem keys_setCall (s : System) (c : Nat) (request : Request) (phase : Phase) :
    (s.setCall c request phase).keys = s.keys := rfl

theorem keys_spawn (s : System) (key : Key) : (s.spawn key).keys = s.keys ++ [key] := by
  simp [System.keys, System.spawn]

theorem keys_prefix_spawn (s : System) (key : Key) : s.keys <+: (s.spawn key).keys :=
  keys_spawn s key ▸ List.prefix_append _ _

theorem builders_store (s : System) (c : Nat) (request : Request) (b : Nat) :
    (s.store c request b).builders = Function.update s.builders request.key (some b) := rfl

/-- A builder's loop may change, its key does not. -/
theorem keys_set {s : System} {b : Nat} {task : Spawned} (h : s.spawned[b]? = some task) (loop : Builder.Loop) :
    (s.spawned.set b { task with loop := loop }).map Spawned.key = s.keys := by
  obtain ⟨hb, rfl⟩ := List.getElem?_eq_some_iff.mp h
  unfold System.keys
  rw [List.map_set, ← List.getElem_map Spawned.key]
  · exact List.set_getElem_self _
  · rwa [List.length_map]

theorem key_of_spawned {s : System} {b : Nat} {task : Spawned} (h : s.spawned[b]? = some task) :
    s.keys[b]? = some task.key := by
  unfold System.keys
  rw [List.getElem?_map, h]
  rfl

theorem getElem?_snoc {α : Type*} {as : List α} {last a : α} {b : Nat} (h : (as ++ [last])[b]? = some a) :
    as[b]? = some a ∨ (b = as.length ∧ a = last) := by
  rcases Nat.lt_or_ge b as.length with hlt | hge
  · rw [List.getElem?_append_left hlt] at h
    exact Or.inl h
  · rw [List.getElem?_append_right hge] at h
    obtain ⟨hb, ha⟩ := List.getElem?_eq_some_iff.mp h
    simp only [List.length_singleton] at hb
    refine Or.inr ⟨by omega, ?_⟩
    simpa using ha.symm

theorem getElem?_set_cases {α : Type*} {as : List α} {new a : α} {b b' : Nat} (h : (as.set b new)[b']? = some a) :
    (b = b' ∧ new = a) ∨ (b ≠ b' ∧ as[b']? = some a) := by
  by_cases hb : b = b'
  · subst hb
    rw [List.getElem?_set_self (by simpa using (List.getElem?_eq_some_iff.mp h).1)] at h
    exact Or.inl ⟨rfl, Option.some.inj h⟩
  · rw [List.getElem?_set_ne hb] at h
    exact Or.inr ⟨hb, h⟩

theorem mem_setCall {s : System} {c : Nat} {request : Request} {phase : Phase} {call : Call}
    (h : call ∈ (s.setCall c request phase).calls) : call ∈ s.calls ∨ call = ⟨request, phase⟩ :=
  List.mem_or_eq_of_mem_set h

/-- Any other call stays as it is. -/
theorem mem_setCall_of_ne {s : System} {c : Nat} {request : Request} {phase : Phase} {call old : Call}
    (hcall : s.calls[c]? = some old) (hmem : call ∈ s.calls) (hne : call ≠ old) :
    call ∈ (s.setCall c request phase).calls := by
  obtain ⟨i, hi⟩ := List.mem_iff_getElem?.mp hmem
  have hic : c ≠ i := by
    rintro rfl
    exact hne (Option.some.inj (hi.symm.trans hcall))
  apply List.mem_iff_getElem?.mpr
  exact ⟨i, by rw [System.setCall, List.getElem?_set_ne hic, hi]⟩

/-- **The keys only grow**, by the key of a call. -/
theorem keys_step (s : System) (a : Action) :
    (s.step a).1.keys = s.keys ∨ ∃ call ∈ s.calls, (s.step a).1.keys = s.keys ++ [call.request.key] := by
  have hmove := move_step s a
  generalize (s.step a).1 = s' at hmove
  generalize (s.step a).2 = out at hmove
  cases hmove with
  | created c request hcall _ => exact Or.inr ⟨_, List.mem_of_getElem? hcall, keys_spawn s request.key⟩
  | sent c request b update task _ _ htask => exact Or.inl (keys_set htask _)
  | iterated b expired task htask => exact Or.inl (keys_set htask _)
  | closed b task htask _ => exact Or.inl (keys_set htask _)
  | _ => exact Or.inl rfl

theorem owned_new : Owned .new where
  stored := by simp [System.new]
  sender := by simp [System.new]

/-- The same tables, and a call that holds no other builder than before. -/
theorem Owned.setCall {s : System} {c : Nat} {request : Request} {phase : Phase} (h : Owned s)
    (hphase : ∀ b, phase.builder? = some b → s.keys[b]? = some request.key) : Owned (s.setCall c request phase) where
  stored := h.stored
  sender := by
    intro call hcall b hb
    rcases mem_setCall hcall with hcall | rfl
    · exact h.sender call hcall b hb
    · exact hphase b hb

theorem getElem?_of_prefix {keys keys' : List Key} (h : keys <+: keys') {b : Nat} {key : Key}
    (hb : keys[b]? = some key) : keys'[b]? = some key := by
  obtain ⟨hlt, rfl⟩ := List.getElem?_eq_some_iff.mp hb
  exact List.prefix_iff_getElem?.mp h b hlt

/-- The builders' loops do not matter. -/
theorem Owned.loops {s : System} {spawned : List Spawned} (h : Owned s)
    (hkeys : s.keys <+: spawned.map Spawned.key) : Owned { s with spawned := spawned } where
  stored := fun key b hb => getElem?_of_prefix hkeys (h.stored key b hb)
  sender := fun call hcall b hb => getElem?_of_prefix hkeys (h.sender call hcall b hb)

theorem Owned.step {s : System} (h : Owned s) (a : Action) : Owned (s.step a).1 := by
  have hmove := move_step s a
  generalize (s.step a).1 = s' at hmove
  generalize (s.step a).2 = out at hmove
  cases hmove with
  | called request =>
      refine ⟨h.stored, ?_⟩
      intro call hcall b hb
      rcases List.mem_append.mp hcall with hcall | hcall
      · exact h.sender call hcall b hb
      · obtain rfl := List.mem_singleton.mp hcall
        cases hb
  | found c request b hcall hfound =>
      apply h.setCall
      rintro b' hb'
      obtain rfl := Option.some.inj hb'
      exact h.stored request.key b hfound
  | created c request hcall hnone =>
      have hspawned : Owned (s.spawn request.key) := h.loops (keys_prefix_spawn s request.key)
      apply hspawned.setCall
      intro b hb
      obtain rfl := Option.some.inj hb
      rw [keys_spawn]
      simp [System.keys]
  | stored c request b hcall =>
      have hkey : s.keys[b]? = some request.key := h.sender _ (List.mem_of_getElem? hcall) b rfl
      have hready : Owned (s.setCall c request (.ready b)) := h.setCall fun b' hb' => Option.some.inj hb' ▸ hkey
      refine ⟨?_, hready.sender⟩
      intro key b' hb'
      by_cases heq : key = request.key
      · subst heq
        rw [builders_store, Function.update_self] at hb'
        exact Option.some.inj hb' ▸ hkey
      · rw [builders_store, Function.update_of_ne heq] at hb'
        exact h.stored key b' hb'
  | sent c request b update task _ _ htask =>
      exact (h.loops ((keys_set htask _).symm ▸ List.prefix_rfl)).setCall (by simp [Phase.builder?])
  | failed c request b update _ _ _ => exact h.setCall (by simp [Phase.builder?])
  | returned c request b _ _ => exact h.setCall (by simp [Phase.builder?])
  | iterated b expired task htask => exact h.loops ((keys_set htask _).symm ▸ List.prefix_rfl)
  | closed b task htask _ => exact h.loops ((keys_set htask _).symm ▸ List.prefix_rfl)
  | idle => exact h

theorem owned_after (acts : List Action) : Owned (after acts) :=
  Machine.run_invariant (fun _ a h => h.step a) owned_new acts

/-! ## Only one builder: the run is not raced -/

theorem exists_of_isCreated {phase : Phase} (h : phase.isCreated = true) : ∃ b, phase = .created b := by
  cases phase with
  | created b => exact ⟨b, rfl⟩
  | called => cases h
  | ready b => cases h
  | done => cases h

/-- A raced check spawns a second builder for its key. -/
theorem noRace_of_nodup {s : System} (h : Owned s) {a : Action} (hnodup : (s.step a).1.keys.Nodup) : NoRace s a := by
  cases a with
  | call request => trivial
  | step st =>
      cases st with
      | check c =>
          rintro ⟨request, phase⟩ hcall rfl hnone other hother hcreated heq
          obtain ⟨b, hphase⟩ := exists_of_isCreated hcreated
          have hkey : s.keys[b]? = some request.key := heq ▸ h.sender other hother b (by rw [hphase]; rfl)
          have hstep : (s.step (.step (.check c))).1.keys = s.keys ++ [request.key] := by
            rw [Option.mem_def] at hcall
            rw [← keys_spawn]
            simp [System.step, System.advance, hcall, System.check, hnone]
          rw [hstep] at hnodup
          have hdisjoint := List.disjoint_of_nodup_append hnodup
          exact hdisjoint (List.mem_of_getElem? hkey) List.mem_cons_self
      | store c => trivial
      | send c => trivial
      | iterate b expired => trivial
      | close b => trivial

theorem guarded_of_nodup {acts : List Action} (h : (after acts).keys.Nodup) :
    Machine.Guarded System.step NoRace .new acts := by
  induction acts using List.reverseRecOn with
  | nil => trivial
  | append_singleton acts a ih =>
      rw [after_snoc] at h
      have hearlier : (after acts).keys.Nodup := by
        rcases keys_step (after acts) a with hsame | ⟨call, _, hmore⟩
        · rwa [hsame] at h
        · rw [hmore] at h
          exact h.of_append_left
      exact Machine.guarded_append.mpr ⟨ih hearlier, noRace_of_nodup (owned_after acts) h, trivial⟩

/-! ## An unraced run has only one builder -/

/-- No key has two builders, and each builder is in the map or about to be stored. -/
structure Exclusive (s : System) : Prop where
  owned : Owned s
  nodup : s.keys.Nodup
  known : ∀ b key, s.keys[b]? = some key → s.builders key = some b ∨ ∃ request, ⟨request, .created b⟩ ∈ s.calls

/-- A key with a builder has a builder in the map, or a call that is about to store it. -/
theorem Exclusive.fresh {s : System} (h : Exclusive s) {key : Key} (hnone : s.builders key = none)
    (hrace : ∀ other ∈ s.calls, other.phase.isCreated = true → other.request.key ≠ key) : key ∉ s.keys := by
  intro hmem
  obtain ⟨b, hb⟩ := List.mem_iff_getElem?.mp hmem
  rcases h.known b key hb with hstored | ⟨request, hcall⟩
  · rw [hnone] at hstored
    cases hstored
  · have hkey := h.owned.sender _ hcall b rfl
    rw [hb] at hkey
    exact hrace _ hcall rfl (Option.some.inj hkey).symm

/-- A builder of an exclusive system always has a sender left. -/
theorem Exclusive.held {s : System} (h : Exclusive s) {b : Nat} {task : Spawned} (htask : s.spawned[b]? = some task) :
    s.held b = true := by
  have hkey := key_of_spawned htask
  unfold System.held
  rw [Bool.or_eq_true]
  rcases h.known b task.key hkey with hstored | ⟨request, hcall⟩
  · refine Or.inl ?_
    rw [hkey, Option.any_some, hstored]
    exact decide_eq_true rfl
  · exact Or.inr (List.any_eq_true.mpr ⟨_, hcall, decide_eq_true rfl⟩)

/-- A change in a call that was not about to store a builder. -/
theorem Exclusive.setCall {s : System} {c : Nat} {request : Request} {phase : Phase} {old : Call} (h : Exclusive s)
    (hcall : s.calls[c]? = some old) (hold : ∀ b, old.phase ≠ .created b)
    (howned : Owned (s.setCall c request phase)) : Exclusive (s.setCall c request phase) where
  owned := howned
  nodup := h.nodup
  known := by
    intro b key hb
    refine (h.known b key hb).imp id ?_
    rintro ⟨other, hother⟩
    refine ⟨other, mem_setCall_of_ne hcall hother ?_⟩
    rintro rfl
    exact hold b rfl

theorem Exclusive.loops {s : System} {spawned : List Spawned} (h : Exclusive s)
    (hkeys : spawned.map Spawned.key = s.keys) : Exclusive { s with spawned := spawned } where
  owned := h.owned.loops (hkeys ▸ List.prefix_rfl)
  nodup := by
    show (spawned.map Spawned.key).Nodup
    rw [hkeys]
    exact h.nodup
  known := fun b key hb => h.known b key (hkeys ▸ hb)

/-- A new builder for a fresh key is about to be stored. -/
theorem Exclusive.create {s : System} {c : Nat} {request : Request} (h : Exclusive s)
    (hcall : s.calls[c]? = some ⟨request, .called⟩) (hfresh : request.key ∉ s.keys)
    (howned : Owned ((s.spawn request.key).setCall c request (.created s.spawned.length))) :
    Exclusive ((s.spawn request.key).setCall c request (.created s.spawned.length)) where
  owned := howned
  nodup := by
    rw [keys_setCall, keys_spawn]
    exact h.nodup.append (List.nodup_singleton _) (by simpa using hfresh)
  known := by
    intro b key hb
    rw [keys_setCall, keys_spawn] at hb
    rcases getElem?_snoc hb with hb | ⟨rfl, rfl⟩
    · refine (h.known b key hb).imp id ?_
      rintro ⟨other, hother⟩
      have hcall' : (s.spawn request.key).calls[c]? = some ⟨request, .called⟩ := hcall
      exact ⟨other, mem_setCall_of_ne hcall' hother (by simp)⟩
    · refine Or.inr ⟨request, List.mem_iff_getElem?.mpr ⟨c, ?_⟩⟩
      rw [System.keys, List.length_map]
      exact List.getElem?_set_self (List.getElem?_eq_some_iff.mp hcall).1

/-- The builder of the call goes into the map, where no other has been. -/
theorem Exclusive.store {s : System} {c : Nat} {request : Request} {b : Nat} (h : Exclusive s)
    (hcall : s.calls[c]? = some ⟨request, .created b⟩) (howned : Owned (s.store c request b)) :
    Exclusive (s.store c request b) where
  owned := howned
  nodup := h.nodup
  known := by
    have hkey : s.keys[b]? = some request.key := h.owned.sender _ (List.mem_of_getElem? hcall) b rfl
    intro b' key hb'
    have hb : s.keys[b']? = some key := hb'
    rw [builders_store]
    by_cases heq : key = request.key
    · -- the builder just stored
      subst heq
      have hsame : b = b' :=
        (List.getElem?_inj (List.getElem?_eq_some_iff.mp hkey).1 h.nodup).mp (hkey.trans hb.symm)
      rw [Function.update_self, hsame]
      exact Or.inl rfl
    · rw [Function.update_of_ne heq]
      refine (h.known b' key hb).imp id ?_
      rintro ⟨other, hother⟩
      refine ⟨other, mem_setCall_of_ne hcall hother ?_⟩
      intro hsame
      obtain ⟨_, hphase⟩ := Call.mk.inj hsame
      obtain rfl := Phase.created.inj hphase
      exact heq (Option.some.inj (hb.symm.trans hkey))

/-- **One action** that is not raced. -/
theorem Exclusive.step {s : System} (h : Exclusive s) {a : Action} (hrace : NoRace s a) : Exclusive (s.step a).1 := by
  have hmove := move_step s a
  have howned := h.owned.step a
  generalize (s.step a).1 = s' at hmove howned
  generalize (s.step a).2 = out at hmove
  cases hmove with
  | called request =>
      refine ⟨howned, h.nodup, ?_⟩
      intro b key hb
      refine (h.known b key hb).imp id ?_
      rintro ⟨other, hother⟩
      exact ⟨other, List.mem_append_left _ hother⟩
  | found c request b hcall hfound => exact h.setCall hcall (by simp) howned
  | created c request hcall hnone =>
      exact h.create hcall (h.fresh hnone (hrace ⟨request, .called⟩ hcall rfl hnone)) howned
  | stored c request b hcall => exact h.store hcall howned
  | sent c request b update task hcall _ htask =>
      exact (h.loops (keys_set htask _)).setCall hcall (by simp) howned
  | failed c request b update hcall _ _ => exact h.setCall hcall (by simp) howned
  | returned c request b hcall _ => exact h.setCall hcall (by simp) howned
  | iterated b expired task htask => exact h.loops (keys_set htask _)
  | closed b task htask _ => exact h.loops (keys_set htask _)
  | idle => exact h

/-! ## What is sent arrives -/

@[simp] theorem receivedBy_append (b : Nat) (out new : List Effect) :
    receivedBy b (out ++ new) = receivedBy b out ++ receivedBy b new := List.filterMap_append

@[simp] theorem sentFor_append (key : Key) (out new : List Effect) :
    sentFor key (out ++ new) = sentFor key out ++ sentFor key new := List.filterMap_append

theorem receivedBy_map (b b' : Nat) (es : List Builder.Effect) :
    receivedBy b' (es.map (.builder b)) = if b = b' then Builder.receivedUpdates es else [] := by
  unfold receivedBy
  rw [List.filterMap_map]
  split_ifs with h
  · apply List.filterMap_congr
    intro e _
    exact if_pos h
  · apply List.filterMap_eq_nil_iff.mpr
    intro e _
    exact if_neg h

theorem sentFor_map (key : Key) (b : Nat) (es : List Builder.Effect) : sentFor key (es.map (.builder b)) = [] := by
  unfold sentFor
  rw [List.filterMap_map]
  exact List.filterMap_eq_nil_iff.mpr fun _ _ => rfl

theorem sentFor_sent (key : Key) (c b : Nat) (u : OrderBookUpdate) :
    sentFor key [.sent c b u] = if keyOf u = key then [u] else [] := by
  unfold sentFor
  split_ifs with h <;> simp [h]

/-- Every builder runs, and what has been sent for its key is what it has received and what waits. -/
structure Delivered (s : System) (out : List Effect) : Prop where
  loops   : ∀ task ∈ s.spawned,
    Builder.Steady task.loop.builder.state ∧ task.loop.running = true ∧ task.loop.closed = false
  silent  : ∀ b, s.spawned.length ≤ b → receivedBy b out = []
  unsent  : ∀ key ∉ s.keys, sentFor key out = []
  arrived : ∀ b task, s.spawned[b]? = some task → receivedBy b out ++ task.loop.channel = sentFor task.key out

/-- An action that leaves the builders alone. -/
theorem Delivered.quiet {s s' : System} {out new : List Effect} (h : Delivered s out)
    (hspawned : s'.spawned = s.spawned) (hreceived : ∀ b, receivedBy b new = [])
    (hsent : ∀ key, sentFor key new = []) : Delivered s' (out ++ new) where
  loops   := hspawned ▸ h.loops
  silent  := by simpa [hreceived, hspawned] using h.silent
  unsent  := by simpa [hsent, System.keys, hspawned] using h.unsent
  arrived := by simpa [hreceived, hsent, hspawned] using h.arrived

theorem key_of_update? {request : Request} {update : OrderBookUpdate} (h : request.update? = some update) :
    request.key = keyOf update := by
  cases request with
  | getOrCreateBuilder exchange symbol => cases h
  | sendUpdate u =>
      obtain rfl := Option.some.inj h
      rfl
  | trySendUpdate u =>
      obtain rfl := Option.some.inj h
      rfl

theorem Delivered.setCall {s : System} {out : List Effect} (h : Delivered s out) (c : Nat) (request : Request)
    (phase : Phase) : Delivered (s.setCall c request phase) out := ⟨h.loops, h.silent, h.unsent, h.arrived⟩

/-- A new builder has an empty channel, and nothing has been sent for its key. -/
theorem Delivered.spawn {s : System} {out : List Effect} {key : Key} (h : Delivered s out) (hfresh : key ∉ s.keys) :
    Delivered (s.spawn key) out where
  loops   := by
    intro task htask
    rcases List.mem_append.mp htask with htask | htask
    · exact h.loops task htask
    · obtain rfl := List.mem_singleton.mp htask
      exact ⟨.buffering [], rfl, rfl⟩
  silent  := by
    intro b hb
    rw [System.spawn, List.length_append, List.length_singleton] at hb
    exact h.silent b (by omega)
  unsent  := by
    intro other hother
    rw [keys_spawn, List.mem_append, not_or] at hother
    exact h.unsent other hother.1
  arrived := by
    intro b task htask
    rcases getElem?_snoc htask with htask | ⟨rfl, rfl⟩
    · exact h.arrived b task htask
    · rw [h.silent _ le_rfl, h.unsent _ hfresh]
      rfl

/-- **An update goes into the channel** of the only builder of its key. -/
theorem Delivered.push {s : System} {out : List Effect} {b : Nat} {update : OrderBookUpdate} {task : Spawned}
    (h : Delivered s out) (htask : s.spawned[b]? = some task) (hkey : task.key = keyOf update) (hnodup : s.keys.Nodup)
    (c : Nat) :
    Delivered
      { s with spawned := s.spawned.set b { task with
          loop := { task.loop with channel := task.loop.channel ++ [update] } } } (out ++ [.sent c b update]) := by
  have hnone : ∀ b', receivedBy b' [.sent c b update] = [] := fun _ => rfl
  refine ⟨?_, ?_, ?_, ?_⟩
  · intro task' htask'
    rcases List.mem_or_eq_of_mem_set htask' with htask' | rfl
    · exact h.loops task' htask'
    · exact h.loops task (List.mem_of_getElem? htask)
  · intro b' hb'
    rw [receivedBy_append, hnone, List.append_nil]
    exact h.silent b' (by simpa using hb')
  · intro key hother
    have hfresh : key ∉ s.keys := (keys_set htask _) ▸ hother
    have hne : keyOf update ≠ key := by
      rintro rfl
      exact hfresh (hkey ▸ List.mem_of_getElem? (key_of_spawned htask))
    rw [sentFor_append, sentFor_sent, if_neg hne, List.append_nil]
    exact h.unsent key hfresh
  · intro b' task' htask'
    rw [receivedBy_append, hnone, List.append_nil, sentFor_append, sentFor_sent]
    rcases getElem?_set_cases htask' with ⟨rfl, rfl⟩ | ⟨hne, htask'⟩
    · rw [if_pos hkey.symm, ← h.arrived b task htask, List.append_assoc]
    · -- another builder has another key
      have hother : keyOf update ≠ task'.key := by
        intro heq
        have hkeys : s.keys[b]? = s.keys[b']? := by
          rw [key_of_spawned htask, key_of_spawned htask', hkey, heq]
        exact hne ((List.getElem?_inj (List.getElem?_eq_some_iff.mp (key_of_spawned htask)).1 hnodup).mp hkeys)
      rw [if_neg hother, List.append_nil]
      exact h.arrived b' task' htask'

/-- **An iteration** of a builder receives what it takes from its channel. -/
theorem Delivered.iterate {s : System} {out : List Effect} {b : Nat} {task : Spawned} (h : Delivered s out)
    (htask : s.spawned[b]? = some task) (expired : Bool) :
    Delivered
      { s with spawned := s.spawned.set b { task with loop := (Builder.loopStep task.loop (.iterate expired)).1 } }
      (out ++ (Builder.loopStep task.loop (.iterate expired)).2.map (.builder b)) := by
  obtain ⟨hsteady, hrunning, hopen⟩ := h.loops task (List.mem_of_getElem? htask)
  rw [Builder.loopStep_iterate hrunning]
  have hturn := Builder.turn_iterate hsteady expired
  obtain ⟨hopen', hrunning', _⟩ := hturn.channel_cases hopen
  refine ⟨?_, ?_, ?_, ?_⟩
  · intro task' htask'
    rcases List.mem_or_eq_of_mem_set htask' with htask' | rfl
    · exact h.loops task' htask'
    · exact ⟨hturn.steady hsteady, hrunning'.trans hrunning, hopen'⟩
  · intro b' hb'
    rw [List.length_set] at hb'
    have hne : b ≠ b' := by
      rintro rfl
      exact absurd (List.getElem?_eq_some_iff.mp htask).1 (by omega)
    rw [receivedBy_append, receivedBy_map, if_neg hne, List.append_nil]
    exact h.silent b' hb'
  · intro key hfresh
    rw [sentFor_append, sentFor_map, List.append_nil]
    exact h.unsent key ((keys_set htask _) ▸ hfresh)
  · intro b' task' htask'
    rw [receivedBy_append, receivedBy_map, sentFor_append, sentFor_map, List.append_nil]
    rcases getElem?_set_cases htask' with ⟨rfl, rfl⟩ | ⟨hne, htask'⟩
    · rw [if_pos rfl, List.append_assoc, hturn.received]
      exact h.arrived b task htask
    · rw [if_neg hne, List.append_nil]
      exact h.arrived b' task' htask'

/-- **One action** that is not raced. -/
theorem Delivered.step {s : System} {out : List Effect} (h : Delivered s out) (hs : Exclusive s) {a : Action}
    (hrace : NoRace s a) : Delivered (s.step a).1 (out ++ (s.step a).2) := by
  have hmove := move_step s a
  generalize (s.step a).1 = s' at hmove
  generalize (s.step a).2 = new at hmove
  cases hmove with
  | called request => exact h.quiet rfl (fun _ => rfl) (fun _ => rfl)
  | found c request b _ _ => exact h.quiet rfl (fun _ => rfl) (fun _ => rfl)
  | stored c request b _ => exact h.quiet rfl (fun _ => rfl) (fun _ => rfl)
  | failed c request b update _ _ _ => exact h.quiet rfl (fun _ => rfl) (fun _ => rfl)
  | returned c request b _ _ => exact h.quiet rfl (fun _ => rfl) (fun _ => rfl)
  | idle => exact h.quiet rfl (fun _ => rfl) (fun _ => rfl)
  | created c request hcall hnone =>
      have hfresh : request.key ∉ s.keys := hs.fresh hnone (hrace ⟨request, .called⟩ hcall rfl hnone)
      exact (h.spawn hfresh).quiet rfl (fun _ => rfl) (fun _ => rfl)
  | sent c request b update task hcall hupdate htask =>
      have hkey : task.key = keyOf update := by
        have howned := hs.owned.sender _ (List.mem_of_getElem? hcall) b rfl
        rw [key_of_spawned htask] at howned
        exact (Option.some.inj howned).trans (key_of_update? hupdate)
      exact (h.push htask hkey hs.nodup c).setCall c request .done
  | iterated b expired task htask => exact h.iterate htask expired
  | closed b task htask hheld =>
      rw [hs.held htask] at hheld
      cases hheld

/-! ## One builder for each key -/

theorem exclusive_new : Exclusive .new := ⟨owned_new, List.nodup_nil, by simp [System.keys, System.new]⟩

theorem delivered_new : Delivered .new [] :=
  ⟨by simp [System.new], fun _ _ => rfl, fun _ _ => rfl, by simp [System.new]⟩

/-- **An unraced run** keeps both invariants. -/
theorem delivered_of_guarded {acts : List Action} (h : Machine.Guarded System.step NoRace .new acts) :
    Exclusive (after acts) ∧ Delivered (after acts) (effects acts) := by
  have hstep : ∀ s out a, Exclusive s ∧ Delivered s out → NoRace s a →
      Exclusive (s.step a).1 ∧ Delivered (s.step a).1 (out ++ (s.step a).2) :=
    fun s out a hs hrace => ⟨hs.1.step hrace, hs.2.step hs.1 hrace⟩
  exact h.trace_invariant hstep ⟨exclusive_new, delivered_new⟩

/-- **There is one builder for each key, and it gets what is sent for the key in the order the sends complete,
    exactly when no check that finds no builder meets another call that has spawned one for the key and not yet
    stored it.** -/
theorem one_builder_per_key_iff (acts : List Action) :
    OneBuilderPerKey (after acts) (effects acts) ↔ Machine.Guarded System.step NoRace .new acts := by
  constructor
  · intro h
    exact guarded_of_nodup h.1
  · intro h
    obtain ⟨hexclusive, hdelivered⟩ := delivered_of_guarded h
    exact ⟨hexclusive.nodup, hdelivered.arrived⟩

/-- Two calls for one key both check before either stores. -/
def twoChecks : List Action :=
  [.call (.sendUpdate { (default : OrderBookUpdate) with updateId := 1 }),
    .call (.sendUpdate { (default : OrderBookUpdate) with updateId := 2 }),
    .step (.check 0), .step (.check 1), .step (.store 0), .step (.store 1), .step (.send 0), .step (.send 1)]

/-- **Two builders for one key**, with one update each. -/
theorem two_checks_two_builders :
    (after twoChecks).keys = [(.binance, ""), (.binance, "")] ∧
    (after twoChecks).spawned.map (fun task => task.loop.channel.map OrderBookUpdate.updateId) = [[1], [2]] ∧
    ¬ OneBuilderPerKey (after twoChecks) (effects twoChecks) := by
  have hkeys : (after twoChecks).keys = [(.binance, ""), (.binance, "")] := by decide
  refine ⟨hkeys, by decide, ?_⟩
  intro h
  have hnodup := h.1
  rw [hkeys] at hnodup
  simp at hnodup

end Manager
end TradingPlatform
