import Mathlib.Data.List.Basic

/-!
# `Library.FixedWindow` — a limiter that counts, and starts again when its window is over

The counter admits up to a limit; a request that comes later than the width after the start begins a new window. Each
window holds at most the limit (`length_admitted_le`), and an interval as long as the width meets at most two of them,
so it holds at most twice the limit (`within_admitted_le`), and not always less. A refusal changes nothing that is
admitted later (`admitted_after_refused`).
-/

namespace FixedWindow

structure Counter where
  start : Int
  count : Nat
deriving DecidableEq

variable (width : Int) (limit : Nat)

/-- The window is over. -/
def Expired (c : Counter) (now : Int) : Prop := now - c.start > width

instance (c : Counter) (now : Int) : Decidable (Expired width c now) := inferInstanceAs (Decidable (_ > _))

/-- The window a request falls into. -/
def current (c : Counter) (now : Int) : Counter := if Expired width c now then ⟨now, 0⟩ else c

def ask (c : Counter) (now : Int) : Bool × Counter :=
  if limit ≤ (current width c now).count then (false, current width c now)
  else (true, { current width c now with count := (current width c now).count + 1 })

/-- The times of the requests that are admitted. -/
def admitted : Counter → List Int → List Int
  | _, []          => []
  | c, now :: times =>
    if (ask width limit c now).1 then now :: admitted (ask width limit c now).2 times
    else admitted (ask width limit c now).2 times

/-- No request of these begins a new window. -/
def OneWindow : Counter → List Int → Prop
  | _, []          => True
  | c, now :: times => ¬ Expired width c now ∧ OneWindow (ask width limit c now).2 times

variable {width limit} {c : Counter} {now start : Int} {times : List Int}

/-! ## One request -/

/-- What a request can do: be refused in its window, or be counted in it. -/
theorem ask_cases (width : Int) (limit : Nat) (c : Counter) (now : Int) :
    (limit ≤ (current width c now).count ∧ ask width limit c now = (false, current width c now)) ∨
    ((current width c now).count < limit ∧
      ask width limit c now = (true, ⟨(current width c now).start, (current width c now).count + 1⟩)) := by
  unfold ask
  rcases Nat.lt_or_ge (current width c now).count limit with hroom | hfull
  · exact Or.inr ⟨hroom, if_neg (Nat.not_le.mpr hroom)⟩
  · exact Or.inl ⟨hfull, if_pos hfull⟩

theorem current_of_not_expired (h : ¬ Expired width c now) : current width c now = c := if_neg h

theorem current_of_expired (h : Expired width c now) : current width c now = ⟨now, 0⟩ := if_pos h

/-- A refusal leaves the counter as it is, unless nothing is ever admitted. -/
theorem after_refused (h : (ask width limit c now).1 = false) : (ask width limit c now).2 = c ∨ limit = 0 := by
  rcases ask_cases width limit c now with ⟨hfull, hask⟩ | ⟨_, hask⟩
  · rw [hask]
    by_cases hexpired : Expired width c now
    · rw [current_of_expired hexpired] at hfull
      exact Or.inr (Nat.le_zero.mp hfull)
    · exact Or.inl (current_of_not_expired hexpired)
  · rw [hask] at h
    cases h

/-! ## Runs -/

theorem admitted_of_refused {c' : Counter} (h : ask width limit c now = (false, c')) (times : List Int) :
    admitted width limit c (now :: times) = admitted width limit c' times := by
  rw [admitted, h]
  rfl

theorem admitted_of_counted {c' : Counter} (h : ask width limit c now = (true, c')) (times : List Int) :
    admitted width limit c (now :: times) = now :: admitted width limit c' times := by
  rw [admitted, h]
  rfl

theorem mem_times_of_mem_admitted {t : Int} (h : t ∈ admitted width limit c times) : t ∈ times := by
  induction times generalizing c with
  | nil => cases h
  | cons now times ih =>
      rcases ask_cases width limit c now with ⟨_, hask⟩ | ⟨_, hask⟩
      · rw [admitted_of_refused hask] at h
        exact List.mem_cons_of_mem _ (ih h)
      · rw [admitted_of_counted hask] at h
        rcases List.mem_cons.mp h with rfl | h
        · exact List.mem_cons_self
        · exact List.mem_cons_of_mem _ (ih h)

theorem admitted_of_zero (c : Counter) (times : List Int) : admitted width 0 c times = [] := by
  induction times generalizing c with
  | nil => rfl
  | cons now times ih =>
      rcases ask_cases width 0 c now with ⟨_, hask⟩ | ⟨hroom, _⟩
      · rw [admitted_of_refused hask]
        exact ih _
      · exact absurd hroom (Nat.not_lt_zero _)

/-- **A refusal changes nothing that is admitted later.** -/
theorem admitted_after_refused (h : (ask width limit c now).1 = false) (times : List Int) :
    admitted width limit (ask width limit c now).2 times = admitted width limit c times := by
  rcases after_refused h with hsame | rfl
  · rw [hsame]
  · rw [admitted_of_zero, admitted_of_zero]

/-- **One window admits at most what is left of the limit.** -/
theorem length_admitted_le (h : OneWindow width limit c times) :
    (admitted width limit c times).length ≤ limit - c.count := by
  induction times generalizing c with
  | nil => exact Nat.zero_le _
  | cons now times ih =>
      obtain ⟨hsame, hrest⟩ := h
      have hle := ih hrest
      rcases ask_cases width limit c now with ⟨_, hask⟩ | ⟨hroom, hask⟩
      · rw [admitted_of_refused hask]
        rw [hask, current_of_not_expired hsame] at hle
        rwa [current_of_not_expired hsame]
      · rw [admitted_of_counted hask, List.length_cons]
        rw [current_of_not_expired hsame] at hroom hask ⊢
        rw [hask] at hle
        dsimp only at hle
        omega

/-! ## Intervals -/

/-- How many of the times are in the half-open interval of the width from `start`. -/
def within (width start : Int) (times : List Int) : Nat := times.countP fun t => start ≤ t ∧ t < start + width

theorem within_eq_zero (h : ∀ t ∈ times, start + width ≤ t) : within width start times = 0 := by
  unfold within
  rw [List.countP_eq_zero]
  intro t ht hin
  have hle := h t ht
  rw [decide_eq_true_eq] at hin
  omega

theorem within_cons_le (width start t : Int) (times : List Int) :
    within width start (t :: times) ≤ within width start times + 1 := by
  unfold within
  rw [List.countP_cons]
  split <;> omega

theorem within_cons_of_lt (width : Int) {t : Int} (h : t < start) (times : List Int) :
    within width start (t :: times) = within width start times := by
  unfold within
  rw [List.countP_cons_of_neg]
  rw [decide_eq_true_eq]
  omega

/-- In a window that goes on, a request takes at most what it uses up of the limit. -/
theorem within_same_window_le (hsame : ¬ Expired width c now) {extra : Nat}
    (hrest : ∀ count, within width start (admitted width limit ⟨c.start, count⟩ times) ≤ (limit - count) + extra) :
    within width start (admitted width limit c (now :: times)) ≤ (limit - c.count) + extra := by
  rcases ask_cases width limit c now with ⟨_, hask⟩ | ⟨hroom, hask⟩
  · rw [admitted_of_refused hask, current_of_not_expired hsame]
    exact hrest c.count
  · rw [current_of_not_expired hsame] at hroom hask
    have hle := hrest (c.count + 1)
    have hcons := within_cons_le width start now (admitted width limit ⟨c.start, c.count + 1⟩ times)
    rw [admitted_of_counted hask]
    omega

/-- A window that began in the interval admits no more in it than it has left: the next begins after the interval. -/
theorem within_le_left (hstart : start ≤ c.start) (hclock : times.Pairwise (· ≤ ·)) :
    within width start (admitted width limit c times) ≤ limit - c.count := by
  induction times generalizing c with
  | nil => exact Nat.zero_le _
  | cons now times ih =>
      obtain ⟨hnow, htimes⟩ := List.pairwise_cons.mp hclock
      by_cases hexpired : Expired width c now
      · have hlate : ∀ t ∈ admitted width limit c (now :: times), start + width ≤ t := by
          intro t ht
          unfold Expired at hexpired
          rcases List.mem_cons.mp (mem_times_of_mem_admitted ht) with rfl | ht
          · omega
          · have hle := hnow t ht
            omega
        rw [within_eq_zero hlate]
        exact Nat.zero_le _
      · exact @within_same_window_le width limit c now start times hexpired 0 fun count => ih hstart htimes

/-- The request that comes after the end of a window begins the next one, at its own time. -/
theorem admitted_of_expired (h : Expired width c now) (times : List Int) :
    admitted width limit c (now :: times) = admitted width limit ⟨now, 0⟩ (now :: times) := by
  have hnew : current width ⟨now, 0⟩ now = ⟨now, 0⟩ := by
    unfold current
    split <;> rfl
  have hask : ask width limit c now = ask width limit ⟨now, 0⟩ now := by
    unfold ask
    rw [current_of_expired h, hnew]
  rw [admitted, admitted, hask]

/-- A window that began before the interval can be followed by one that begins in it. -/
theorem within_le_left_add (hclock : times.Pairwise (· ≤ ·)) (htimes : ∀ t ∈ times, start ≤ t) :
    within width start (admitted width limit c times) ≤ (limit - c.count) + limit := by
  induction times generalizing c with
  | nil => exact Nat.zero_le _
  | cons now times ih =>
      by_cases hexpired : Expired width c now
      · rw [admitted_of_expired hexpired]
        have hle := @within_le_left width limit ⟨now, 0⟩ start (now :: times) (htimes now List.mem_cons_self) hclock
        exact Nat.le_trans hle (Nat.le_add_left _ _)
      · have hclock' := (List.pairwise_cons.mp hclock).2
        have htimes' : ∀ t ∈ times, start ≤ t := fun t ht => htimes t (List.mem_cons_of_mem _ ht)
        exact within_same_window_le hexpired fun count => ih hclock' htimes'

/-- **An interval as long as the width holds at most twice the limit.** -/
theorem within_admitted_le (c : Counter) (hclock : times.Pairwise (· ≤ ·)) (start : Int) :
    within width start (admitted width limit c times) ≤ 2 * limit := by
  induction times generalizing c with
  | nil => exact Nat.zero_le _
  | cons now times ih =>
      obtain ⟨hnow, hclock'⟩ := List.pairwise_cons.mp hclock
      rcases Int.lt_or_le now start with hbefore | hfrom
      · -- what comes before the interval does not count in it
        have hrest := ih (ask width limit c now).2 hclock'
        rcases ask_cases width limit c now with ⟨_, hask⟩ | ⟨_, hask⟩
        · rw [admitted_of_refused hask]
          rwa [hask] at hrest
        · rw [admitted_of_counted hask, within_cons_of_lt width hbefore]
          rwa [hask] at hrest
      · have hall : ∀ t ∈ now :: times, start ≤ t := by
          intro t ht
          rcases List.mem_cons.mp ht with rfl | ht
          · exact hfrom
          · exact Int.le_trans hfrom (hnow t ht)
        have hle := @within_le_left_add width limit c start (now :: times) hclock hall
        omega

end FixedWindow
