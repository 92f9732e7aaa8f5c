import TradingPlatform.Library.Seqlock
import Mathlib.Data.List.Nodup

/-!
# `Library.Registers` — fields that are stored and loaded without a lock

One writer makes updates, each of them a list of stores. Any number of readers load fields one after the other, and
return what they have loaded. All loads and stores interleave in any order.

The updates number the versions of a field. A load gives a version that is not older than the last one completed when
the call began, and what is loaded later is older by one version at most (`run_regular`); it is not older at all where
every update stores the fields in the opposite order. For two fields, what is not excluded by that can be returned
(`exists_read`).
-/

namespace Registers

open Machine Seqlock

variable {F V U R : Type*}

/-! ## The machine -/

/-- A call under way: how many updates were complete when it began, and the fields still to be loaded. -/
structure Reading (F V : Type*) where
  since  : Nat
  loaded : List (F × V)
  rest   : List F

/-- The memory, the stores of the last update that have been made and that have not, all updates so far, and the
    readers. -/
structure State (F V U R : Type*) where
  memory  : F → V
  made    : List (F × V)
  pending : List (F × V)
  begun   : List U
  readers : R → Option (Reading F V)

def State.new (initial : F → V) : State F V U R :=
  { memory := initial, made := [], pending := [], begun := [], readers := fun _ => none }

/-- The updates that are complete. -/
def State.completed (s : State F V U R) : Nat := if s.pending.isEmpty then s.begun.length else s.begun.length - 1

theorem State.completed_le (s : State F V U R) : s.completed ≤ s.begun.length := by
  unfold State.completed
  split <;> omega

theorem State.pred_le_completed (s : State F V U R) : s.begun.length - 1 ≤ s.completed := by
  unfold State.completed
  split <;> omega

theorem State.completed_busy {s : State F V U R} (h : s.pending ≠ []) : s.completed = s.begun.length - 1 :=
  if_neg fun hempty => h (List.isEmpty_iff.mp hempty)

inductive Action (F U R : Type*) where
  /-- The writer begins an update, when the last one is complete. -/
  | update (update : U)
  /-- The next store of the update. -/
  | store
  /-- A reader is called. -/
  | read (reader : R) (fields : List F)
  /-- Its next load. -/
  | load (reader : R)

/-- What a call has returned. -/
structure Read (F V R : Type*) where
  reader : R
  since  : Nat
  loaded : List (F × V)
deriving DecidableEq

section Step

variable [DecidableEq F] [DecidableEq R] (stores : U → List (F × V))

def State.moveTo (s : State F V U R) (reader : R) (position : Option (Reading F V)) : State F V U R :=
  { s with readers := Function.update s.readers reader position }

/-- One load; after the last one the call returns. -/
def State.load (s : State F V U R) (reader : R) : State F V U R × List (Read F V R) :=
  match s.readers reader with
  | some ⟨since, loaded, [field]⟩        =>
    (s.moveTo reader none, [{ reader, since, loaded := loaded ++ [(field, s.memory field)] }])
  | some ⟨since, loaded, field :: rest⟩  =>
    (s.moveTo reader (some ⟨since, loaded ++ [(field, s.memory field)], rest⟩), [])
  | _                                    => (s, [])

def step (s : State F V U R) : Action F U R → State F V U R × List (Read F V R)
  | .update update =>
    match s.pending with
    | []     => ({ s with made := [], pending := stores update, begun := s.begun ++ [update] }, [])
    | _ :: _ => (s, [])
  | .store =>
    match s.pending with
    | []                     => (s, [])
    | (field, value) :: rest =>
      ({ s with memory := Function.update s.memory field value, made := s.made ++ [(field, value)], pending := rest },
        [])
  | .read reader fields =>
    match s.readers reader with
    | none   => (s.moveTo reader (some ⟨s.completed, [], fields⟩), [])
    | some _ => (s, [])
  | .load reader => s.load reader

end Step

/-- Readers leave the writer alone. -/
theorem load_writer [DecidableEq R] (s : State F V U R) (reader : R) :
    (s.load reader).1.memory = s.memory ∧ (s.load reader).1.made = s.made ∧
    (s.load reader).1.pending = s.pending ∧ (s.load reader).1.begun = s.begun := by
  unfold State.load
  split <;> exact ⟨rfl, rfl, rfl, rfl⟩

/-! ## What is in memory -/

section Memory

variable [DecidableEq F] (stores : U → List (F × V)) (initial : F → V)

/-- The stores made are those of the last update, as far as they are not pending. -/
structure Inv (s : State F V U R) : Prop where
  memory : s.memory = perform (version stores initial s.begun (s.begun.length - 1)) s.made
  last   : (s.begun = [] ∧ s.made = [] ∧ s.pending = []) ∨
    ∃ updates update, s.begun = updates ++ [update] ∧ stores update = s.made ++ s.pending

/-- The version of the field that is in memory. -/
def State.versionOf (s : State F V U R) (field : F) : Nat :=
  if s.pending.isEmpty ∨ field ∈ s.made.map Prod.fst then s.begun.length else s.begun.length - 1

variable {stores initial} {s : State F V U R}

theorem State.completed_le_versionOf (s : State F V U R) (field : F) : s.completed ≤ s.versionOf field := by
  unfold State.completed State.versionOf
  split
  next hempty =>
    exact Nat.le_of_eq (if_pos (Or.inl hempty)).symm
  next => split <;> omega

theorem State.versionOf_le (s : State F V U R) (field : F) : s.versionOf field ≤ s.begun.length := by
  unfold State.versionOf
  split <;> omega

theorem State.pred_le_versionOf (s : State F V U R) (field : F) : s.begun.length - 1 ≤ s.versionOf field := by
  unfold State.versionOf
  split <;> omega

theorem State.versionOf_quiet (h : s.pending = []) (field : F) : s.versionOf field = s.begun.length := by
  unfold State.versionOf
  rw [h]
  exact if_pos (Or.inl rfl)

theorem perform_of_not_mem {writes : List (F × V)} {field : F} (h : field ∉ writes.map Prod.fst) (memory : F → V) :
    perform memory writes field = memory field := by
  induction writes generalizing memory with
  | nil => rfl
  | cons write writes ih =>
      rw [List.map_cons, List.mem_cons, not_or] at h
      show perform (Function.update memory write.1 write.2) writes field = _
      rw [ih h.2, Function.update_of_ne h.1]

theorem perform_append (memory : F → V) (writes more : List (F × V)) :
    perform memory (writes ++ more) = perform (perform memory writes) more := List.foldl_append ..

theorem Inv.new : Inv stores initial (.new initial : State F V U R) := ⟨rfl, Or.inl ⟨rfl, rfl, rfl⟩⟩

/-- **The memory** holds of every field the version it should. -/
theorem Inv.memory_eq (h : Inv stores initial s) (hnodup : ∀ update, ((stores update).map Prod.fst).Nodup) (field : F) :
    s.memory field = version stores initial s.begun (s.versionOf field) field := by
  rcases h.last with ⟨hbegun, hmade, hpending⟩ | ⟨updates, update, hbegun, hstores⟩
  · rw [h.memory, hmade, s.versionOf_quiet hpending, hbegun]
    rfl
  · have hlength : s.begun.length = updates.length + 1 := by rw [hbegun, List.length_append, List.length_singleton]
    have hbefore : version stores initial s.begun (s.begun.length - 1)
        = version stores initial updates updates.length := by
      rw [hlength, Nat.add_sub_cancel, hbegun, version_append stores (Nat.le_refl _)]
    have hafter : version stores initial s.begun s.begun.length = perform s.memory s.pending := by
      rw [hlength, hbegun, version_concat, hstores, perform_append, h.memory, hbefore]
    have hdistinct := hnodup update
    rw [hstores, List.map_append] at hdistinct
    unfold State.versionOf
    split
    next hcurrent =>
      have hnot : field ∉ s.pending.map Prod.fst := by
        rcases hcurrent with hempty | hmade
        · rw [List.isEmpty_iff.mp hempty]
          exact List.not_mem_nil
        · exact fun hmem => List.disjoint_of_nodup_append hdistinct hmade hmem
      rw [hafter, perform_of_not_mem hnot]
    next hstale =>
      rw [not_or] at hstale
      rw [h.memory, perform_of_not_mem hstale.2]

/-- An update leaves what it does not store. -/
theorem version_succ (initial : F → V) {updates : List U} {m : Nat} {update : U} (h : updates[m]? = some update)
    {field : F} (hnot : field ∉ (stores update).map Prod.fst) :
    version stores initial updates (m + 1) field = version stores initial updates m field := by
  unfold version
  rw [List.take_add_one, h, List.foldl_append]
  exact perform_of_not_mem hnot _

/-- The number of a version does not depend on what comes after it. -/
theorem version_take (stores : U → List (F × V)) (initial : F → V) (updates : List U) {n m : Nat} (h : n ≤ m) :
    version stores initial (updates.take m) n = version stores initial updates n := by
  unfold version
  rw [List.take_take, Nat.min_eq_left h]

/-- At rest the memory is the last version. -/
theorem memory_upto (hs : Inv stores initial s) (hnodup : ∀ update, ((stores update).map Prod.fst).Nodup)
    (hquiet : s.pending = []) {updates : List U} {n : Nat} (hbegun : s.begun = updates.take n) (hn : n ≤ updates.length)
    (field : F) : s.memory field = version stores initial updates n field := by
  have hlength : s.begun.length = n := by rw [hbegun, List.length_take, Nat.min_eq_left hn]
  rw [hs.memory_eq hnodup, s.versionOf_quiet hquiet, hlength, hbegun, version_take _ _ _ (Nat.le_refl _)]

variable (stores) [DecidableEq R]

theorem Inv.step (h : Inv stores initial s) (action : Action F U R) :
    Inv stores initial (Registers.step stores s action).1 := by
  cases action with
  | update update =>
      unfold Registers.step
      dsimp only
      split
      next hquiet =>
        refine ⟨?_, Or.inr ⟨s.begun, update, rfl, rfl⟩⟩
        have hlength : (s.begun ++ [update]).length - 1 = s.begun.length := by
          rw [List.length_append, List.length_singleton, Nat.add_sub_cancel]
        show s.memory = version stores initial (s.begun ++ [update]) ((s.begun ++ [update]).length - 1)
        rw [hlength, version_append stores (Nat.le_refl _)]
        rcases h.last with ⟨hbegun, hmade, -⟩ | ⟨updates, last, hbegun, hstores⟩
        · rw [h.memory, hmade, hbegun]
          rfl
        · rw [hquiet, List.append_nil] at hstores
          have hlast : s.begun.length = updates.length + 1 := by
            rw [hbegun, List.length_append, List.length_singleton]
          rw [h.memory, hlast, Nat.add_sub_cancel, hbegun, version_append stores (Nat.le_refl _), ← hstores,
            version_concat]
      next => exact h
  | store =>
      unfold Registers.step
      dsimp only
      split
      · exact h
      next field value rest hpending =>
        refine ⟨?_, ?_⟩
        · show Function.update s.memory field value = perform _ (s.made ++ [(field, value)])
          rw [perform_append, ← h.memory]
          rfl
        · rcases h.last with ⟨-, -, hnone⟩ | ⟨updates, update, hbegun, hstores⟩
          · rw [hnone] at hpending
            cases hpending
          · refine Or.inr ⟨updates, update, hbegun, ?_⟩
            rw [hstores, hpending, List.append_assoc]
            rfl
  | read reader fields =>
      unfold Registers.step
      dsimp only
      split
      · exact ⟨h.memory, h.last⟩
      · exact h
  | load reader =>
      obtain ⟨hmemory, hmade, hpending, hbegun⟩ := load_writer s reader
      show Inv stores initial (s.load reader).1
      exact ⟨by rw [hmemory, hmade, hbegun]; exact h.memory, by rw [hmade, hpending, hbegun]; exact h.last⟩

end Memory

/-! ## What is loaded -/

section Order

variable (stores : U → List (F × V))

/-- There is a point in the update at which `field` has been stored and `other` has not. -/
def Splits (update : U) (field other : F) : Prop :=
  ∃ made pending, stores update = made ++ pending ∧ field ∈ made.map Prod.fst ∧ other ∉ made.map Prod.fst

/-- A load of version `n`, and a later one of version `m`. -/
def InOrder (updates : List U) (field : F) (n : Nat) (other : F) (m : Nat) : Prop :=
  n ≤ m ∨ (n = m + 1 ∧ ∃ update, updates[m]? = some update ∧ Splits stores update field other)

variable {stores} {updates : List U}

theorem InOrder.append {field other : F} {n m : Nat} (h : InOrder stores updates field n other m) (more : List U) :
    InOrder stores (updates ++ more) field n other m := by
  rcases h with hle | ⟨hsucc, update, hupdate, hsplits⟩
  · exact Or.inl hle
  · refine Or.inr ⟨hsucc, update, ?_, hsplits⟩
    rw [List.getElem?_append_left (List.getElem?_eq_some_iff.mp hupdate).1]
    exact hupdate

end Order

section Loads

variable [DecidableEq F] (stores : U → List (F × V)) (initial : F → V)

/-- What has been loaded, with the versions: not older than `since`, not newer than `bound`, and in order. -/
structure Loaded (updates : List U) (since : Nat) (bound : F → Nat) (loads : List ((F × V) × Nat)) : Prop where
  ordered : loads.Pairwise fun load later => InOrder stores updates load.1.1 load.2 later.1.1 later.2
  since   : ∀ load ∈ loads, since ≤ load.2
  bound   : ∀ load ∈ loads, load.2 ≤ bound load.1.1
  value   : ∀ load ∈ loads, load.1.2 = version stores initial updates load.2 load.1.1

/-- A call under way. -/
def ReadingOk (s : State F V U R) (reading : Reading F V) : Prop :=
  reading.since ≤ s.completed ∧ ∃ loads, reading.loaded = loads.map Prod.fst ∧
    Loaded stores initial s.begun reading.since s.versionOf loads

/-- What a call has returned. -/
def Regular (updates : List U) (since : Nat) (loaded : List (F × V)) : Prop :=
  ∃ loads, loaded = loads.map Prod.fst ∧ Loaded stores initial updates since (fun _ => updates.length) loads

structure Traced (s : State F V U R) (reads : List (Read F V R)) : Prop where
  inv      : Inv stores initial s
  readings : ∀ reader, ∀ reading ∈ s.readers reader, ReadingOk stores initial s reading
  reads    : ∀ read ∈ reads, Regular stores initial s.begun read.since read.loaded

variable {stores initial} {s : State F V U R} {updates : List U} {since : Nat} {reads : List (Read F V R)}

theorem Traced.new : Traced stores initial (.new initial : State F V U R) [] :=
  ⟨.new, fun _ _ hnone => absurd hnone (Option.not_mem_none _), fun _ hread => absurd hread List.not_mem_nil⟩

/-- Time passes. -/
theorem Loaded.mono {bound bound' : F → Nat} {loads : List ((F × V) × Nat)}
    (h : Loaded stores initial updates since bound loads) (hle : ∀ field, bound field ≤ updates.length)
    (hbound : ∀ field, bound field ≤ bound' field) (more : List U) :
    Loaded stores initial (updates ++ more) since bound' loads := by
  refine ⟨h.ordered.imp fun hpair => hpair.append more, h.since, fun load hload => ?_, fun load hload => ?_⟩
  · exact Nat.le_trans (h.bound load hload) (hbound _)
  · rw [version_append stores (Nat.le_trans (h.bound load hload) (hle _))]
    exact h.value load hload

/-- **The next load** gives what is in memory. -/
theorem Loaded.snoc {loads : List ((F × V) × Nat)} (h : Loaded stores initial s.begun since s.versionOf loads)
    (hs : Inv stores initial s) (hnodup : ∀ update, ((stores update).map Prod.fst).Nodup)
    (hsince : since ≤ s.completed) (field : F) :
    Loaded stores initial s.begun since s.versionOf (loads ++ [((field, s.memory field), s.versionOf field)]) := by
  have hlast : ∀ {p : (F × V) × Nat → Prop}, (∀ load ∈ loads, p load) →
      p ((field, s.memory field), s.versionOf field) →
      ∀ load ∈ loads ++ [((field, s.memory field), s.versionOf field)], p load := by
    intro p hbefore hnext load hload
    rcases List.mem_append.mp hload with hload | hload
    · exact hbefore load hload
    · exact List.mem_singleton.mp hload ▸ hnext
  refine ⟨?_, hlast h.since (Nat.le_trans hsince (s.completed_le_versionOf field)), hlast h.bound (Nat.le_refl _),
    hlast h.value (hs.memory_eq hnodup field)⟩
  refine List.pairwise_append.mpr ⟨h.ordered, List.pairwise_singleton _ _, fun load hload later hlater => ?_⟩
  obtain rfl := List.mem_singleton.mp hlater
  have hbound := h.bound load hload
  have hupper := s.versionOf_le load.1.1
  have hlower := s.pred_le_versionOf field
  by_cases hle : load.2 ≤ s.versionOf field
  · exact Or.inl hle
  · -- the first field is stored already, and the other one is not
    refine Or.inr ⟨by omega, ?_⟩
    have hstale : ¬ (s.pending.isEmpty ∨ field ∈ s.made.map Prod.fst) := by
      intro hcurrent
      have hversion : s.versionOf field = s.begun.length := if_pos hcurrent
      omega
    rw [not_or] at hstale
    have hstored : load.1.1 ∈ s.made.map Prod.fst := by
      by_contra hnot
      have hversion : s.versionOf load.1.1 = s.begun.length - 1 := if_neg (not_or.mpr ⟨hstale.1, hnot⟩)
      omega
    rcases hs.last with ⟨-, -, hquiet⟩ | ⟨before, update, hbegun, hstores⟩
    · exact absurd (List.isEmpty_iff.mpr hquiet) hstale.1
    · refine ⟨update, ?_, s.made, s.pending, hstores, hstored, hstale.2⟩
      have hlength : s.versionOf field = before.length := by
        have htotal : s.begun.length = before.length + 1 := by
          rw [hbegun, List.length_append, List.length_singleton]
        omega
      rw [hlength, hbegun, List.getElem?_append_right (Nat.le_refl _), Nat.sub_self]
      rfl

theorem Regular.append {updates : List U} {since : Nat} {loaded : List (F × V)}
    (h : Regular stores initial updates since loaded) (more : List U) :
    Regular stores initial (updates ++ more) since loaded := by
  obtain ⟨loads, hloaded, hloads⟩ := h
  refine ⟨loads, hloaded, hloads.mono (fun _ => Nat.le_refl _) (fun _ => ?_) more⟩
  rw [List.length_append]
  exact Nat.le_add_right _ _

theorem ReadingOk.next {s' : State F V U R} {reading : Reading F V} (h : ReadingOk stores initial s reading)
    {more : List U} (hbegun : s'.begun = s.begun ++ more) (hcompleted : s.completed ≤ s'.completed)
    (hversion : ∀ field, s.versionOf field ≤ s'.versionOf field) : ReadingOk stores initial s' reading := by
  obtain ⟨hsince, loads, hloaded, hloads⟩ := h
  refine ⟨Nat.le_trans hsince hcompleted, loads, hloaded, ?_⟩
  rw [hbegun]
  exact hloads.mono s.versionOf_le hversion more

/-- The writer makes a step, and versions do not go back. -/
theorem Traced.writer {s' : State F V U R} (h : Traced stores initial s reads) (hinv : Inv stores initial s')
    {more : List U} (hbegun : s'.begun = s.begun ++ more) (hcompleted : s.completed ≤ s'.completed)
    (hversion : ∀ field, s.versionOf field ≤ s'.versionOf field) (hreaders : s'.readers = s.readers) :
    Traced stores initial s' (reads ++ []) := by
  refine ⟨hinv, fun reader reading hreading => ?_, fun read hread => ?_⟩
  · rw [hreaders] at hreading
    exact (h.readings reader reading hreading).next hbegun hcompleted hversion
  · rw [List.append_nil] at hread
    rw [hbegun]
    exact (h.reads read hread).append more

end Loads

/-! ## Whole runs -/

section Runs

variable [DecidableEq F] [DecidableEq R] {stores : U → List (F × V)} {initial : F → V} {s : State F V U R}
  {reads : List (Read F V R)}

/-- A reader moves. -/
theorem Traced.moveTo (h : Traced stores initial s reads) (reader : R) {position : Option (Reading F V)}
    (hposition : ∀ reading ∈ position, ReadingOk stores initial s reading) {returned : List (Read F V R)}
    (hreturned : ∀ read ∈ returned, Regular stores initial s.begun read.since read.loaded) :
    Traced stores initial (s.moveTo reader position) (reads ++ returned) := by
  refine ⟨⟨h.inv.memory, h.inv.last⟩, fun other reading hreading => ?_, fun read hread => ?_⟩
  · by_cases hother : other = reader
    · subst hother
      rw [show (s.moveTo other position).readers other = position from Function.update_self ..] at hreading
      exact hposition reading hreading
    · rw [show (s.moveTo reader position).readers other = s.readers other from Function.update_of_ne hother ..]
        at hreading
      exact h.readings other reading hreading
  · rcases List.mem_append.mp hread with hread | hread
    · exact h.reads read hread
    · exact hreturned read hread

variable (stores) in
theorem Traced.step (h : Traced stores initial s reads) (hnodup : ∀ update, ((stores update).map Prod.fst).Nodup)
    (action : Action F U R) :
    Traced stores initial (Registers.step stores s action).1 (reads ++ (Registers.step stores s action).2) := by
  have hinv := h.inv.step stores action
  cases action with
  | update update =>
      unfold Registers.step at hinv ⊢
      dsimp only at hinv ⊢
      split at hinv
      next hquiet =>
        have hlength : (s.begun ++ [update]).length - 1 = s.begun.length := by
          rw [List.length_append, List.length_singleton, Nat.add_sub_cancel]
        refine @Traced.writer _ _ _ _ _ _ _ _ _ _ h hinv [update] rfl ?_ (fun field => ?_) rfl
        · refine Nat.le_trans ?_ (State.pred_le_completed _)
          exact Nat.le_trans s.completed_le (Nat.le_of_eq hlength.symm)
        · refine Nat.le_trans ?_ (State.pred_le_versionOf _ field)
          exact Nat.le_trans (s.versionOf_le field) (Nat.le_of_eq hlength.symm)
      next _ hpending =>
        exact h.writer h.inv (List.append_nil _).symm (Nat.le_refl _) (fun _ => Nat.le_refl _) rfl
  | store =>
      unfold Registers.step at hinv ⊢
      dsimp only at hinv ⊢
      split at hinv
      next hquiet =>
        exact h.writer h.inv (List.append_nil _).symm (Nat.le_refl _) (fun _ => Nat.le_refl _) rfl
      next field value rest hpending =>
        refine h.writer hinv (List.append_nil _).symm ?_ (fun other => ?_) rfl
        · rw [s.completed_busy (by rw [hpending]; exact List.cons_ne_nil _ _)]
          refine Nat.le_trans ?_ (State.pred_le_completed _)
          exact Nat.le_refl _
        · unfold State.versionOf
          rw [hpending]
          dsimp only
          split
          next hcurrent =>
            have hmade : other ∈ s.made.map Prod.fst := by simpa using hcurrent
            have hstored : other ∈ (s.made ++ [(field, value)]).map Prod.fst := by
              rw [List.map_append]
              exact List.mem_append_left _ hmade
            exact Nat.le_of_eq (if_pos (Or.inr hstored)).symm
          next => split <;> omega
  | read reader fields =>
      unfold Registers.step
      dsimp only
      split
      · refine h.moveTo reader ?_ fun _ hread => absurd hread List.not_mem_nil
        rintro _ ⟨⟩
        exact ⟨Nat.le_refl _, [], rfl, .nil, nofun, nofun, nofun⟩
      · exact h.writer h.inv (List.append_nil _).symm (Nat.le_refl _) (fun _ => Nat.le_refl _) rfl
  | load reader =>
      show Traced stores initial (s.load reader).1 (reads ++ (s.load reader).2)
      unfold State.load
      split
      next since loaded field hreading =>
        obtain ⟨hsince, loads, hloaded, hloads⟩ := h.readings reader _ hreading
        refine h.moveTo reader (fun _ hnone => absurd hnone (Option.not_mem_none _)) fun read hread => ?_
        obtain rfl := List.mem_singleton.mp hread
        have hall := (hloads.snoc h.inv hnodup hsince field).mono s.versionOf_le s.versionOf_le []
        rw [List.append_nil] at hall
        refine ⟨_, ?_, hall⟩
        rw [List.map_append, ← hloaded]
        rfl
      next since loaded field rest hrest hreading =>
        obtain ⟨hsince, loads, hloaded, hloads⟩ := h.readings reader _ hreading
        refine h.moveTo reader ?_ fun _ hread => absurd hread List.not_mem_nil
        rintro _ ⟨⟩
        refine ⟨hsince, _, ?_, hloads.snoc h.inv hnodup hsince field⟩
        rw [List.map_append, ← hloaded]
        rfl
      next => exact h.writer h.inv (List.append_nil _).symm (Nat.le_refl _) (fun _ => Nat.le_refl _) rfl

variable (stores initial) in
/-- **Every call returns** versions in order, none of them older than the last one completed when it began. -/
theorem run_regular (hnodup : ∀ update, ((stores update).map Prod.fst).Nodup) (actions : List (Action F U R)) :
    ∀ read ∈ (run (Registers.step stores) (.new initial) actions).2,
      Regular stores initial (run (Registers.step stores) (.new initial) actions).1.begun read.since read.loaded := by
  have hstep : ∀ (s : State F V U R) out (action : Action F U R), Traced stores initial s out → True →
      Traced stores initial (Registers.step stores s action).1 (out ++ (Registers.step stores s action).2) :=
    fun s out action h _ => h.step stores hnodup action
  exact ((guarded_of_forall (P := fun _ => True) (fun _ _ => trivial) _).trace_invariant hstep .new).reads

end Runs

/-! ## What can be returned -/

section Possible

variable [DecidableEq F] [DecidableEq R] (stores : U → List (F × V)) {initial : F → V} {s : State F V U R}

/-- A state that steps lead to, and what is returned on the way. -/
def Leads (s s' : State F V U R) (reads : List (Read F V R)) : Prop :=
  ∃ actions, run (Registers.step stores) s actions = (s', reads)

variable {stores}

theorem Leads.refl (s : State F V U R) : Leads stores s s [] := ⟨[], rfl⟩

theorem Leads.trans {s' s'' : State F V U R} {reads more : List (Read F V R)} (h : Leads stores s s' reads)
    (h' : Leads stores s' s'' more) : Leads stores s s'' (reads ++ more) := by
  obtain ⟨actions, hactions⟩ := h
  obtain ⟨later, hlater⟩ := h'
  exact ⟨actions ++ later, run_append hactions hlater⟩

theorem Leads.one {s' : State F V U R} {reads : List (Read F V R)} (action : Action F U R)
    (h : Registers.step stores s action = (s', reads)) : Leads stores s s' reads := by
  refine ⟨[action], ?_⟩
  rw [run_cons, run_nil, h, List.append_nil]

theorem Inv.leads {s' : State F V U R} {reads : List (Read F V R)} (hs : Inv stores initial s)
    (h : Leads stores s s' reads) : Inv stores initial s' := by
  obtain ⟨actions, hactions⟩ := h
  have hrun := @run_invariant (State F V U R) _ _ (Registers.step stores) (Inv stores initial)
    (fun _ action h => h.step stores action) s hs actions
  rw [hactions] at hrun
  exact hrun

variable (stores) in
/-- Stores that are pending are made. -/
theorem leads_stores (made rest : List (F × V)) (h : s.pending = made ++ rest) :
    ∃ s', Leads stores s s' [] ∧ s'.made = s.made ++ made ∧ s'.pending = rest ∧ s'.begun = s.begun ∧
      s'.readers = s.readers := by
  induction made generalizing s with
  | nil => exact ⟨s, .refl s, (List.append_nil _).symm, h, rfl, rfl⟩
  | cons store made ih =>
      have hstep : Registers.step stores s .store = ({ s with
          memory := Function.update s.memory store.1 store.2, made := s.made ++ [store], pending := made ++ rest },
          []) := by
        unfold Registers.step
        rw [h]
        rfl
      obtain ⟨s', hleads, hmade, hpending, hbegun, hreaders⟩ := @ih { s with
        memory := Function.update s.memory store.1 store.2, made := s.made ++ [store], pending := made ++ rest } rfl
      refine ⟨s', (Leads.one .store hstep).trans hleads, ?_, hpending, hbegun, hreaders⟩
      rw [hmade, List.append_assoc, List.singleton_append]

variable (stores) in
/-- The writer begins an update and stops in the middle of it. -/
theorem leads_update (hquiet : s.pending = []) (update : U) {made rest : List (F × V)}
    (h : stores update = made ++ rest) :
    ∃ s', Leads stores s s' [] ∧ s'.made = made ∧ s'.pending = rest ∧ s'.begun = s.begun ++ [update] ∧
      s'.readers = s.readers := by
  have hstep : Registers.step stores s (.update update) =
      ({ s with made := [], pending := stores update, begun := s.begun ++ [update] }, []) := by
    unfold Registers.step
    rw [hquiet]
  obtain ⟨s', hleads, hmade, hpending, hbegun, hreaders⟩ := leads_stores stores
    (s := { s with made := [], pending := stores update, begun := s.begun ++ [update] }) made rest h
  exact ⟨s', (Leads.one (.update update) hstep).trans hleads, hmade, hpending, hbegun, hreaders⟩

/-- It completes some updates. -/
theorem leads_updates (hquiet : s.pending = []) (updates : List U) :
    ∃ s', Leads stores s s' [] ∧ s'.pending = [] ∧ s'.begun = s.begun ++ updates ∧ s'.readers = s.readers := by
  induction updates generalizing s with
  | nil => exact ⟨s, .refl s, hquiet, (List.append_nil _).symm, rfl⟩
  | cons update updates ih =>
      obtain ⟨s₁, hfirst, -, hpending, hbegun, hreaders⟩ := leads_update stores hquiet update (List.append_nil _).symm
      obtain ⟨s', hleads, hpending', hbegun', hreaders'⟩ := ih hpending
      refine ⟨s', hfirst.trans hleads, hpending', ?_, hreaders'.trans hreaders⟩
      rw [hbegun', hbegun, List.append_assoc, List.singleton_append]

variable (stores) in
/-- The updates up to a number, when fewer are complete. -/
theorem leads_upto (hquiet : s.pending = []) {updates : List U} {n m : Nat} (hbegun : s.begun = updates.take n)
    (hle : n ≤ m) :
    ∃ s', Leads stores s s' [] ∧ s'.pending = [] ∧ s'.begun = updates.take m ∧ s'.readers = s.readers := by
  obtain ⟨s', hleads, hpending, hbegun', hreaders⟩ := leads_updates hquiet ((updates.take m).drop n)
  refine ⟨s', hleads, hpending, ?_, hreaders⟩
  have htake : updates.take n = (updates.take m).take n := by rw [List.take_take, Nat.min_eq_left hle]
  rw [hbegun', hbegun, htake, List.take_append_drop]

variable (stores) in
theorem leads_load {reader : R} {since : Nat} {loaded : List (F × V)} {field other : F} {rest : List F}
    (h : s.readers reader = some ⟨since, loaded, field :: other :: rest⟩) :
    Leads stores s (s.moveTo reader (some ⟨since, loaded ++ [(field, s.memory field)], other :: rest⟩)) [] := by
  refine .one (.load reader) ?_
  show s.load reader = _
  unfold State.load
  rw [h]

variable (stores) in
theorem leads_last {reader : R} {since : Nat} {loaded : List (F × V)} {field : F}
    (h : s.readers reader = some ⟨since, loaded, [field]⟩) :
    Leads stores s (s.moveTo reader none) [⟨reader, since, loaded ++ [(field, s.memory field)]⟩] := by
  refine .one (.load reader) ?_
  show s.load reader = _
  unfold State.load
  rw [h]

/-- A call of two loads, after `since` updates. -/
theorem leads_read (initial : F → V) (updates : List U) {since : Nat} (hsince : since ≤ updates.length) (reader : R)
    (fields : List F) :
    ∃ s', Leads stores (.new initial) s' [] ∧ s'.pending = [] ∧ s'.begun = updates.take since ∧
      s'.readers reader = some ⟨since, [], fields⟩ := by
  obtain ⟨s', hleads, hpending, hbegun, hreaders⟩ := leads_upto stores
    (s := (.new initial : State F V U R)) rfl (List.take_zero (l := updates)).symm (Nat.zero_le since)
  have hcompleted : s'.completed = since := by
    unfold State.completed
    rw [hpending, hbegun, List.length_take, Nat.min_eq_left hsince]
    rfl
  have hidle : s'.readers reader = none := by rw [hreaders]; rfl
  refine ⟨s'.moveTo reader (some ⟨since, [], fields⟩), hleads.trans (.one (.read reader fields) ?_), hpending, hbegun,
    Function.update_self ..⟩
  unfold Registers.step
  dsimp only
  rw [hidle, hcompleted]

variable (stores initial) in
/-- **What is not excluded is possible**: two versions in order are returned in some run. -/
theorem exists_read (hnodup : ∀ update, ((stores update).map Prod.fst).Nodup) {updates : List U} {since n m : Nat}
    {field other : F} (hn : since ≤ n) (hm : since ≤ m) (hnle : n ≤ updates.length) (hmle : m ≤ updates.length)
    (h : InOrder stores updates field n other m) (reader : R) :
    ∃ s', Leads stores (.new initial) s' [⟨reader, since, [(field, version stores initial updates n field),
      (other, version stores initial updates m other)]⟩] ∧ s'.begun = updates := by
  obtain ⟨s₀, hleads₀, hpending₀, hbegun₀, hreader₀⟩ := leads_read initial updates
    (Nat.le_trans hn hnle) reader [field, other]
  rcases h with hle | ⟨rfl, update, hupdate, made, pending, hstores, hfield, hother⟩
  · -- load, complete the updates up to `m`, load again
    obtain ⟨s₁, hleads₁, hpending₁, hbegun₁, hreaders₁⟩   := leads_upto stores hpending₀ hbegun₀ hn
    have hs₁ : Inv stores initial s₁ := Inv.new.leads (hleads₀.trans hleads₁)
    have hload : Leads stores s₁ _ [] := leads_load stores (hreaders₁ ▸ hreader₀)
    obtain ⟨s₂, hleads₂, hpending₂, hbegun₂, hreaders₂⟩ := leads_upto stores
      (s := s₁.moveTo reader (some ⟨since, [] ++ [(field, s₁.memory field)], [other]⟩)) hpending₁ hbegun₁ hle
    have hs₂ : Inv stores initial s₂ := hs₁.leads (hload.trans hleads₂)
    have hreader₂ : s₂.readers reader = some ⟨since, [] ++ [(field, s₁.memory field)], [other]⟩ := by
      rw [hreaders₂]
      exact Function.update_self ..
    have hlast := leads_last stores hreader₂
    obtain ⟨s₃, hleads₃, -, hbegun₃, -⟩ := leads_upto stores (s := s₂.moveTo reader none) hpending₂ hbegun₂
      hmle
    refine ⟨s₃, ?_, hbegun₃.trans (List.take_length ..)⟩
    have hall := hleads₀.trans (hleads₁.trans (hload.trans (hleads₂.trans (hlast.trans hleads₃))))
    rw [memory_upto hs₁ hnodup hpending₁ hbegun₁ hnle, memory_upto hs₂ hnodup hpending₂ hbegun₂ hmle] at hall
    exact hall
  · -- both loads in the middle of the update
    obtain ⟨s₁, hleads₁, hpending₁, hbegun₁, hreaders₁⟩   := leads_upto stores hpending₀ hbegun₀ hm
    obtain ⟨s₂, hleads₂, hmade₂, hpending₂, hbegun₂, hreaders₂⟩ := leads_update stores hpending₁ update hstores
    have hs₂ : Inv stores initial s₂ := Inv.new.leads (hleads₀.trans (hleads₁.trans hleads₂))
    have hbegun : s₂.begun = updates.take (m + 1) := by
      rw [hbegun₂, hbegun₁, List.take_add_one, hupdate]
      rfl
    have hlength : s₂.begun.length = m + 1 := by rw [hbegun, List.length_take, Nat.min_eq_left hnle]
    have hnew : s₂.memory field = version stores initial updates (m + 1) field := by
      have hversion : s₂.versionOf field = s₂.begun.length := if_pos (Or.inr (hmade₂ ▸ hfield))
      rw [hs₂.memory_eq hnodup, hversion, hlength, hbegun, version_take _ _ _ (Nat.le_refl _)]
    have hold : s₂.memory other = version stores initial updates m other := by
      rw [hs₂.memory, hmade₂, perform_of_not_mem hother, hlength, Nat.add_sub_cancel, hbegun,
        version_take _ _ _ (Nat.le_succ m)]
    have hreader₂ : s₂.readers reader = some ⟨since, [], [field, other]⟩ := by rw [hreaders₂, hreaders₁, hreader₀]
    have hload := leads_load stores hreader₂
    have hreader : (s₂.moveTo reader (some ⟨since, [] ++ [(field, s₂.memory field)], [other]⟩)).readers reader
        = some ⟨since, [] ++ [(field, s₂.memory field)], [other]⟩ := Function.update_self ..
    have hlast := leads_last stores hreader
    obtain ⟨s₃, hleads₃, -, hpending₃, hbegun₃, -⟩ := leads_stores stores
      (s := (s₂.moveTo reader (some ⟨since, [] ++ [(field, s₂.memory field)], [other]⟩)).moveTo reader none)
      pending [] (hpending₂.trans (List.append_nil _).symm)
    obtain ⟨s₄, hleads₄, -, hbegun₄, -⟩ := leads_upto stores hpending₃ (hbegun₃.trans hbegun) hnle
    refine ⟨s₄, ?_, hbegun₄.trans (List.take_length ..)⟩
    have hall := hleads₀.trans (hleads₁.trans (hleads₂.trans (hload.trans (hlast.trans (hleads₃.trans hleads₄)))))
    rw [← hnew, ← hold]
    exact hall

variable (stores initial) in
/-- **What a call of two loads returns**, and nothing else, in the runs that begin these updates. -/
theorem read_iff (hnodup : ∀ update, ((stores update).map Prod.fst).Nodup) (updates : List U) (reader : R) (since : Nat)
    (field : F) (value : V) (other : F) (otherValue : V) :
    (∃ actions, (run (Registers.step stores) (.new initial) actions).1.begun = updates ∧
      ⟨reader, since, [(field, value), (other, otherValue)]⟩ ∈
        (run (Registers.step stores) (.new initial) actions).2) ↔
    ∃ n m, since ≤ n ∧ since ≤ m ∧ n ≤ updates.length ∧ m ≤ updates.length ∧
      InOrder stores updates field n other m ∧ value = version stores initial updates n field ∧
      otherValue = version stores initial updates m other := by
  constructor
  · rintro ⟨actions, rfl, hread⟩
    obtain ⟨loads, hloaded, hloads⟩ := run_regular stores initial hnodup actions _ hread
    obtain ⟨⟨first, n⟩, loads, rfl, rfl, hrest⟩ := List.map_eq_cons_iff.mp hloaded.symm
    obtain ⟨⟨last, m⟩, loads, rfl, rfl, hnil⟩ := List.map_eq_cons_iff.mp hrest
    obtain rfl := List.map_eq_nil_iff.mp hnil
    have hfirst : ((field, value), n) ∈ [((field, value), n), ((other, otherValue), m)] := List.mem_cons_self
    have hlast : ((other, otherValue), m) ∈ [((field, value), n), ((other, otherValue), m)] :=
      List.mem_cons_of_mem _ (List.mem_singleton_self _)
    exact ⟨n, m, hloads.since _ hfirst, hloads.since _ hlast, hloads.bound _ hfirst, hloads.bound _ hlast,
      (List.pairwise_cons.mp hloads.ordered).1 _ (List.mem_singleton_self _), hloads.value _ hfirst,
      hloads.value _ hlast⟩
  · rintro ⟨n, m, hn, hm, hnle, hmle, horder, rfl, rfl⟩
    obtain ⟨s', ⟨actions, hactions⟩, hbegun⟩ := exists_read stores initial hnodup hn hm hnle hmle horder reader
    refine ⟨actions, ?_, ?_⟩
    · rw [hactions]
      exact hbegun
    · rw [hactions]
      exact List.mem_singleton_self _

end Possible

end Registers
