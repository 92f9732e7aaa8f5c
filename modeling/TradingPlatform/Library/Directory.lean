import Mathlib.Data.List.Sort
import Mathlib.Data.List.Nodup

/-!
# `Library.Directory` — the files of a directory and when they were written

A directory maps names to files with a content and a modification time. The clock moves on with every write, so a
file just written is younger than all others. Of the files a predicate on names picks out, `Latest` says which
is the youngest; the operations keep it or replace it, and it is the last when the files are sorted by age.
-/

namespace Directory

variable {N α : Type*}

structure File (α : Type*) where
  content : α
  mtime   : Nat
deriving DecidableEq

/-- The entries, and the time of the next write. -/
structure Disk (N α : Type*) where
  entries : List (N × File α)
  clock   : Nat

inductive Op (N α : Type*) where
  | write (name : N) (content : α)
  | rename (name target : N)
  | remove (name : N)

namespace Disk

/-- An empty directory. -/
def empty : Disk N α := { entries := [], clock := 0 }

variable [DecidableEq N]

def lookup (d : Disk N α) (name : N) : Option α := (d.entries.find? (·.1 = name)).map (·.2.content)

/-- A write replaces the file of that name. -/
def write (d : Disk N α) (name : N) (content : α) : Disk N α :=
  { entries := d.entries.filter (·.1 ≠ name) ++ [(name, ⟨content, d.clock⟩)], clock := d.clock + 1 }

/-- So does a rename; the file keeps its modification time. -/
def rename (d : Disk N α) (name target : N) : Disk N α :=
  match d.entries.find? (·.1 = name) with
  | none   => d
  | some e => { d with entries := d.entries.filter (fun e' => e'.1 ≠ name ∧ e'.1 ≠ target) ++ [(target, e.2)] }

def remove (d : Disk N α) (name : N) : Disk N α := { d with entries := d.entries.filter (·.1 ≠ name) }

def apply (d : Disk N α) : Op N α → Disk N α
  | .write name content  => d.write name content
  | .rename name target  => d.rename name target
  | .remove name         => d.remove name

def applyAll (d : Disk N α) (ops : List (Op N α)) : Disk N α := ops.foldl apply d

omit [DecidableEq N] in
/-- The entries a predicate picks out, oldest first. -/
def byAge (p : N → Bool) (d : Disk N α) : List (N × File α) :=
  (d.entries.filter (p ·.1)).insertionSort (·.2.mtime ≤ ·.2.mtime)

/-! ## Well-formedness -/

/-- Names are used once, and every file was written in the past. -/
structure WellFormed (d : Disk N α) : Prop where
  names : (d.entries.map Prod.fst).Nodup
  past  : ∀ e ∈ d.entries, e.2.mtime < d.clock

omit [DecidableEq N] in
theorem wellFormed_empty : (empty : Disk N α).WellFormed :=
  ⟨List.nodup_nil, by intro e he; cases he⟩

omit [DecidableEq N] in
/-- A name decides its entry. -/
theorem WellFormed.eq_of_name {d : Disk N α} (h : d.WellFormed) {e e' : N × File α} (he : e ∈ d.entries)
    (he' : e' ∈ d.entries) (hname : e.1 = e'.1) : e = e' :=
  List.inj_on_of_nodup_map h.names he he' hname

omit [DecidableEq N] in
/-- Some entries and one of a new name. -/
theorem nodup_filter_append {entries : List (N × File α)} (h : (entries.map Prod.fst).Nodup)
    {keep : N × File α → Bool} {name : N} (hnew : ∀ e ∈ entries, keep e → e.1 ≠ name) (file : File α) :
    ((entries.filter keep ++ [(name, file)]).map Prod.fst).Nodup := by
  rw [List.map_append, List.map_singleton]
  refine List.nodup_append.mpr ⟨h.sublist (List.filter_sublist.map _), List.nodup_singleton _, ?_⟩
  intro n hn m hm hnm
  obtain ⟨e, he, rfl⟩ := List.mem_map.mp hn
  obtain ⟨hmem, hkeep⟩ := List.mem_filter.mp he
  rw [List.mem_singleton.mp hm] at hnm
  exact hnew e hmem hkeep hnm

theorem WellFormed.write {d : Disk N α} (h : d.WellFormed) (name : N) (content : α) :
    (d.write name content).WellFormed := by
  refine ⟨nodup_filter_append h.names (by intro e _ hkeep; simpa using hkeep) _, fun e he => ?_⟩
  rcases List.mem_append.mp he with he | he
  · exact Nat.lt_succ_of_lt (h.past e (List.mem_of_mem_filter he))
  · rw [List.mem_singleton.mp he]
    exact Nat.lt_succ_self _

theorem WellFormed.rename {d : Disk N α} (h : d.WellFormed) (name target : N) :
    (d.rename name target).WellFormed := by
  unfold Disk.rename
  split
  next => exact h
  next e hfind =>
    refine ⟨nodup_filter_append h.names (by intro e' _ hkeep; simp at hkeep; exact hkeep.2) _, fun e' he' => ?_⟩
    rcases List.mem_append.mp he' with he' | he'
    · exact h.past e' (List.mem_of_mem_filter he')
    · rw [List.mem_singleton.mp he']
      exact h.past e (List.mem_of_find?_eq_some hfind)

theorem WellFormed.remove {d : Disk N α} (h : d.WellFormed) (name : N) : (d.remove name).WellFormed :=
  ⟨h.names.sublist (List.filter_sublist.map _), fun e he => h.past e (List.mem_of_mem_filter he)⟩

theorem WellFormed.apply {d : Disk N α} (h : d.WellFormed) (op : Op N α) : (d.apply op).WellFormed := by
  cases op with
  | write name content => exact h.write name content
  | rename name target => exact h.rename name target
  | remove name => exact h.remove name

theorem WellFormed.applyAll {d : Disk N α} (h : d.WellFormed) (ops : List (Op N α)) : (d.applyAll ops).WellFormed := by
  induction ops generalizing d with
  | nil => exact h
  | cons op ops ih => exact ih (h.apply op)

/-! ## The youngest file -/

variable {p : N → Bool}

/-- Of the files `p` picks out, `e` is the youngest. -/
structure Latest (p : N → Bool) (d : Disk N α) (e : N × File α) : Prop where
  mem     : e ∈ d.entries
  picked  : p e.1 = true
  younger : ∀ e' ∈ d.entries, p e'.1 = true → e' ≠ e → e'.2.mtime < e.2.mtime

omit [DecidableEq N] in
/-- **Sorted by age, the youngest comes last.** -/
theorem Latest.getLast?_byAge {d : Disk N α} {e : N × File α} (h : Latest p d e) :
    (byAge p d).getLast? = some e := by
  have hmem : e ∈ byAge p d := by
    refine List.mem_insertionSort _ |>.mpr (List.mem_filter.mpr ⟨h.mem, h.picked⟩)
  have hsorted : (byAge p d).Pairwise (·.2.mtime ≤ ·.2.mtime) := by
    have : Std.Total fun a b : N × File α => a.2.mtime ≤ b.2.mtime := ⟨fun a b => Nat.le_total _ _⟩
    have : IsTrans (N × File α) fun a b => a.2.mtime ≤ b.2.mtime := ⟨fun _ _ _ => Nat.le_trans⟩
    exact List.pairwise_insertionSort _ _
  obtain ⟨xs, last, hxs⟩ : ∃ xs last, byAge p d = xs ++ [last] :=
    ⟨_, _, (List.dropLast_concat_getLast (List.ne_nil_of_mem hmem)).symm⟩
  rw [hxs, List.getLast?_append, List.getLast?_singleton]
  rw [hxs] at hmem hsorted
  by_contra hne
  have hne : last ≠ e := fun heq => hne (by rw [heq]; rfl)
  have hlast : last ∈ byAge p d := by
    rw [hxs]
    exact List.mem_append_right _ (List.mem_singleton_self _)
  obtain ⟨hin, hpicked⟩ := List.mem_filter.mp ((List.mem_insertionSort _).mp hlast)
  have hlt := h.younger last hin hpicked hne
  rcases List.mem_append.mp hmem with hmem | hmem
  · have hle := (List.pairwise_append.mp hsorted).2.2 e hmem last (List.mem_singleton_self _)
    omega
  · exact hne (List.mem_singleton.mp hmem).symm

/-- A picked file just written is the youngest. -/
theorem latest_write {d : Disk N α} (h : d.WellFormed) {name : N} (hp : p name = true) (content : α) :
    Latest p (d.write name content) (name, ⟨content, d.clock⟩) where
  mem     := List.mem_append_right _ (List.mem_singleton_self _)
  picked  := hp
  younger := by
    intro e he _ hne
    rcases List.mem_append.mp he with he | he
    · exact h.past e (List.mem_of_mem_filter he)
    · exact absurd (List.mem_singleton.mp he) hne

/-- Writing a file that is not picked changes nothing about those that are. -/
theorem Latest.write_other {d : Disk N α} {e : N × File α} (h : Latest p d e) {name : N} (hp : p name = false)
    (content : α) : Latest p (d.write name content) e where
  mem     := by
    refine List.mem_append_left _ (List.mem_filter.mpr ⟨h.mem, decide_eq_true fun heq => ?_⟩)
    rw [← heq, h.picked] at hp
    cases hp
  picked  := h.picked
  younger := by
    intro e' he' hp' hne
    rcases List.mem_append.mp he' with he' | he'
    · exact h.younger e' (List.mem_of_mem_filter he') hp' hne
    · rw [List.mem_singleton.mp he', hp] at hp'
      cases hp'

/-- The youngest stays the youngest under its new name. -/
theorem Latest.rename {d : Disk N α} (hd : d.WellFormed) {e : N × File α} (h : Latest p d e) {target : N}
    (hp : p target = true) : Latest p (d.rename e.1 target) (target, e.2) := by
  have hfind : d.entries.find? (·.1 = e.1) = some e := by
    cases hfound : d.entries.find? (·.1 = e.1) with
    | none => exact absurd (decide_eq_true (Eq.refl e.1)) (List.find?_eq_none.mp hfound e h.mem)
    | some e' =>
        have hname : e'.1 = e.1 := by simpa using List.find?_some hfound
        rw [hd.eq_of_name (List.mem_of_find?_eq_some hfound) h.mem hname]
  unfold Disk.rename
  rw [hfind]
  refine ⟨List.mem_append_right _ (List.mem_singleton_self _), hp, ?_⟩
  intro e' he' hp' hne
  rcases List.mem_append.mp he' with he' | he'
  · obtain ⟨hin, hkeep⟩ := List.mem_filter.mp he'
    simp only [ne_eq, decide_eq_true_eq] at hkeep
    exact h.younger e' hin hp' fun heq => hkeep.1 (by rw [heq])
  · exact absurd (List.mem_singleton.mp he') hne

/-- Removing another file leaves the youngest. -/
theorem Latest.remove_other {d : Disk N α} {e : N × File α} (h : Latest p d e) {name : N} (hne : name ≠ e.1) :
    Latest p (d.remove name) e where
  mem     := List.mem_filter.mpr ⟨h.mem, decide_eq_true fun heq => hne heq.symm⟩
  picked  := h.picked
  younger := fun e' he' => h.younger e' (List.mem_of_mem_filter he')

/-! ## The youngest file that can be used

A file may be picked out by its name and yet be of no use. -/

/-- Of the entries `q` picks out, `e` is the youngest. -/
structure Newest (q : N × File α → Bool) (d : Disk N α) (e : N × File α) : Prop where
  mem     : e ∈ d.entries
  picked  : q e = true
  younger : ∀ e' ∈ d.entries, q e' = true → e' ≠ e → e'.2.mtime < e.2.mtime

section Newest

variable {q : N × File α → Bool} {d : Disk N α} {e : N × File α}

omit [DecidableEq N] in
theorem pairwise_byAge (p : N → Bool) (d : Disk N α) : (byAge p d).Pairwise (·.2.mtime ≤ ·.2.mtime) := by
  have : Std.Total fun a b : N × File α => a.2.mtime ≤ b.2.mtime := ⟨fun a b => Nat.le_total _ _⟩
  have : IsTrans (N × File α) fun a b => a.2.mtime ≤ b.2.mtime := ⟨fun _ _ _ => Nat.le_trans⟩
  exact List.pairwise_insertionSort _ _

omit [DecidableEq N] in
theorem mem_byAge : e ∈ byAge p d ↔ e ∈ d.entries ∧ p e.1 = true := by
  rw [byAge, List.mem_insertionSort, List.mem_filter]

omit [DecidableEq N] in
theorem WellFormed.nodup_byAge (hd : d.WellFormed) (p : N → Bool) : (byAge p d).Nodup :=
  (List.perm_insertionSort _ _).nodup_iff.mpr (hd.names.of_map.filter _)

omit [DecidableEq N] in
/-- **Read from the youngest on**, what is found first is the youngest that can be read. -/
theorem Newest.findSome?_byAge {β : Type*} {read : α → Option β} (hd : d.WellFormed)
    (hq : ∀ e : N × File α, q e = true ↔ p e.1 = true ∧ (read e.2.content).isSome = true) (h : Newest q d e) :
    (byAge p d).reverse.findSome? (fun e => read e.2.content) = read e.2.content := by
  obtain ⟨hp, hread⟩ := (hq e).mp h.picked
  obtain ⟨older, younger, hage⟩ := List.append_of_mem (mem_byAge.mpr ⟨h.mem, hp⟩)
  have hsorted := pairwise_byAge p d
  have hnodup := hd.nodup_byAge p
  rw [hage] at hsorted hnodup
  have hskip : younger.reverse.findSome? (fun e => read e.2.content) = none := by
    refine List.findSome?_eq_none_iff.mpr fun e' he' => ?_
    have he' := List.mem_reverse.mp he'
    have hmem : e' ∈ d.entries ∧ p e'.1 = true := by
      rw [← mem_byAge, hage]
      exact List.mem_append_right _ (List.mem_cons_of_mem _ he')
    have hne : e' ≠ e := by
      rintro rfl
      exact (List.nodup_cons.mp (List.nodup_append.mp hnodup).2.1).1 he'
    have hle := (List.pairwise_cons.mp (List.pairwise_append.mp hsorted).2.1).1 e' he'
    by_contra hsome
    have hlt := h.younger e' hmem.1 ((hq e').mpr ⟨hmem.2, Option.isSome_iff_ne_none.mpr hsome⟩) hne
    omega
  rw [hage, List.reverse_append, List.reverse_cons, List.append_assoc, List.findSome?_append, hskip, Option.none_or]
  obtain ⟨b, hb⟩ := Option.isSome_iff_exists.mp hread
  simp [hb]

omit [DecidableEq N] in
/-- The youngest of all is the youngest that can be used, if it can. -/
theorem Latest.newest (h : Latest p d e) (hp : ∀ e : N × File α, q e = true → p e.1 = true) (hq : q e = true) :
    Newest q d e :=
  ⟨h.mem, hq, fun e' he' hq' => h.younger e' he' (hp e' hq')⟩

/-- A file of another name that is of no use changes nothing. -/
theorem Newest.write_other (h : Newest q d e) {name : N} (hne : name ≠ e.1) {content : α}
    (hq : q (name, ⟨content, d.clock⟩) = false) : Newest q (d.write name content) e where
  mem     := List.mem_append_left _ (List.mem_filter.mpr ⟨h.mem, decide_eq_true fun heq => hne heq.symm⟩)
  picked  := h.picked
  younger := by
    intro e' he' hp' hne'
    rcases List.mem_append.mp he' with he' | he'
    · exact h.younger e' (List.mem_of_mem_filter he') hp' hne'
    · rw [List.mem_singleton.mp he', hq] at hp'
      cases hp'

theorem Newest.remove_other (h : Newest q d e) {name : N} (hne : name ≠ e.1) : Newest q (d.remove name) e where
  mem     := List.mem_filter.mpr ⟨h.mem, decide_eq_true fun heq => hne heq.symm⟩
  picked  := h.picked
  younger := fun e' he' => h.younger e' (List.mem_of_mem_filter he')

omit [DecidableEq N] in
/-- The youngest is not among the oldest, if these are not all. -/
theorem Latest.ne_of_mem_take (hd : d.WellFormed) (h : Latest p d e) {count : Nat} (hcount : count < (byAge p d).length)
    {e' : N × File α} (he' : e' ∈ (byAge p d).take count) : e'.1 ≠ e.1 := by
  obtain ⟨older, hage⟩ := List.getLast?_eq_some_iff.mp h.getLast?_byAge
  have hnodup := hd.nodup_byAge p
  have hmem := mem_byAge.mp (List.mem_of_mem_take he')
  rw [hage] at hnodup he' hcount
  rw [List.length_append, List.length_singleton] at hcount
  rw [List.take_append_of_le_length (by omega)] at he'
  intro hname
  rw [hd.eq_of_name hmem.1 h.mem hname] at he'
  exact (List.nodup_append.mp hnodup).2.2 e (List.mem_of_mem_take he') e (List.mem_singleton_self _) rfl

end Newest

/-! ## Looking up -/

omit [DecidableEq N] in
theorem find?_filter_keep [DecidableEq N] {entries : List (N × File α)} {keep : N × File α → Bool} {name : N}
    (h : ∀ e : N × File α, e.1 = name → keep e = true) :
    (entries.filter keep).find? (·.1 = name) = entries.find? (·.1 = name) := by
  induction entries with
  | nil => rfl
  | cons e entries ih =>
      by_cases hname : e.1 = name
      · rw [List.filter_cons_of_pos (h e hname)]
        simp [hname]
      · rw [List.find?_cons_of_neg (by simpa using hname), ← ih]
        by_cases hkeep : keep e = true
        · rw [List.filter_cons_of_pos hkeep, List.find?_cons_of_neg (by simpa using hname)]
        · rw [List.filter_cons_of_neg hkeep]

omit [DecidableEq N] in
/-- An entry of another name appended is not found. -/
theorem find?_append_other [DecidableEq N] (entries : List (N × File α)) {name other : N} (hne : other ≠ name)
    (file : File α) : (entries ++ [(other, file)]).find? (·.1 = name) = entries.find? (·.1 = name) := by
  rw [List.find?_append, List.find?_cons_of_neg (by simpa using hne), List.find?_nil, Option.or_none]

theorem lookup_write (d : Disk N α) (name : N) (content : α) :
    (d.write name content).lookup name = some content := by
  have hgone : (d.entries.filter (·.1 ≠ name)).find? (·.1 = name) = none := by
    refine List.find?_eq_none.mpr fun e he => ?_
    simpa using (List.mem_filter.mp he).2
  unfold lookup write
  rw [List.find?_append, hgone]
  simp

/-! An operation that touches other names only is not seen. -/

theorem lookup_write_other (d : Disk N α) {name other : N} (hne : other ≠ name) (content : α) :
    (d.write other content).lookup name = d.lookup name := by
  unfold lookup write
  rw [find?_append_other _ hne, find?_filter_keep fun e he => by simpa [he] using hne.symm]

theorem lookup_rename_other (d : Disk N α) {name other target : N} (hne : other ≠ name) (hne' : target ≠ name) :
    (d.rename other target).lookup name = d.lookup name := by
  unfold lookup rename
  split
  next => rfl
  next e _ =>
    rw [find?_append_other _ hne', find?_filter_keep fun e he => by simpa [he] using ⟨hne.symm, hne'.symm⟩]

theorem lookup_remove_other (d : Disk N α) {name other : N} (hne : other ≠ name) :
    (d.remove other).lookup name = d.lookup name := by
  unfold lookup remove
  rw [find?_filter_keep fun e he => by simpa [he] using hne.symm]

end Disk
end Directory
