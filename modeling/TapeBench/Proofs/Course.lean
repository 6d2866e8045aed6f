import Mathlib.Data.List.Chain
import TapeBench.Proofs.Cycles
import TapeBench.Tally

/-!
# `TapeBench.Proofs.Course`: the counters of a run on its way

A run keeps counters: of its time, and of the transactions for each operation. They start at zero,
and no cycle moves any of them by more than one, not even a cycle that faults. So none of them gets
beyond the number of cycles that the run may take. Inside a cycle counters are only raised, so it is
enough to look at them between two cycles, and behind the last one.

* `Counters`: what a run counts. `Counters.Next` and `Counters.AtMost` say how counters move and how
  far they have got.
* `visited`: the states in front of the cycles of a run, and the one that it ends in.
* `Limited`: the counters of a run, one after the other, move as they should and keep a limit.
* `limited_visited`: if no cycle moves a counter by more than one, the budget is a limit.
-/

set_option autoImplicit false

namespace TapeBench

open Bus (Op)

/-! ### Counters -/

/-- A counter stays or moves on by one. -/
def Ticks (before after : Nat) : Prop :=
  after = before ∨ after = before + 1

/-- A limit on a counter is raised by one when the counter ticks. -/
theorem Ticks.le_succ {before after limit : Nat} (h : Ticks before after)
    (hbefore : before ≤ limit) : after ≤ limit + 1 := by
  rcases h with rfl | rfl
  · exact Nat.le_succ_of_le hbefore
  · exact Nat.succ_le_succ hbefore

/-- What a run counts:

- `time`: full cycles, or clock pulses on the serial link;
- `commits`: transactions, as the host of the serial link counts them. The other drivers count none;
- `tally`: transactions for each operation. -/
structure Counters where
  time : Nat := 0
  commits : Nat := 0
  tally : Tally := {}
  deriving DecidableEq

namespace Counters

/-- No counter moves back, and none moves on by more than one:

- `time`, `commits`: the time, and the transactions of the host;
- `tally`: the transactions for each operation. -/
structure Next (before after : Counters) : Prop where
  time : Ticks before.time after.time
  commits : Ticks before.commits after.commits
  tally : ∀ op, Ticks (before.tally.get op) (after.tally.get op)

/-- No counter is beyond a limit:

- `time`, `commits`: the time, and the transactions of the host;
- `tally`: the transactions for each operation. -/
structure AtMost (limit : Nat) (counters : Counters) : Prop where
  time : counters.time ≤ limit
  commits : counters.commits ≤ limit
  tally : ∀ op, counters.tally.get op ≤ limit

/-- Counters that have not moved are at zero. -/
theorem atMost_zero : AtMost 0 {} where
  time := Nat.le_refl 0
  commits := Nat.le_refl 0
  tally := by
    intro op
    cases op <;> exact Nat.le_refl 0

variable {limit : Nat} {before after : Counters}

/-- A limit may be loosened. -/
theorem AtMost.mono {more : Nat} (h : before.AtMost limit) (hmore : limit ≤ more) :
    before.AtMost more where
  time := Nat.le_trans h.time hmore
  commits := Nat.le_trans h.commits hmore
  tally := fun op => Nat.le_trans (h.tally op) hmore

/-- When counters move on, it is enough to raise their limit by one. Here it matters that no counter
moves by more. -/
theorem AtMost.next (h : before.AtMost limit) (hnext : before.Next after) :
    after.AtMost (limit + 1) where
  time := hnext.time.le_succ h.time
  commits := hnext.commits.le_succ h.commits
  tally := fun op => (hnext.tally op).le_succ (h.tally op)

end Counters

/-! ### The states of a run -/

variable {S : Type}

/-- The states in front of the cycles that the loop `cyclesUntilHalted` takes, and the state that it
ends in. A cycle that faults leaves a state too. -/
def visited (halted : S → Bool) (cycle : S → Step S Unit) : (budget : Nat) → (state : S) → List S
  | 0, state => [state]
  | budget + 1, state =>
    if halted state then
      [state]
    else
      match cycle state with
      | ⟨.ok (), next, _⟩ => state :: visited halted cycle budget next
      | ⟨.error _, stuck, _⟩ => [state, stuck]

section Visited

variable {halted : S → Bool} {cycle : S → Step S Unit}

/-- The first state is the one that the loop begins in. -/
theorem exists_visited_eq_cons (halted : S → Bool) (cycle : S → Step S Unit) (budget : Nat)
    (state : S) : ∃ rest, visited halted cycle budget state = state :: rest := by
  fun_cases visited halted cycle budget state <;> exact ⟨_, rfl⟩

/-- The last state is the one that the loop ends in. As this is so for every budget, every state in
the list is one that the loop comes through. -/
theorem getLast?_visited (halted : S → Bool) (cycle : S → Step S Unit) (budget : Nat) (state : S)
    (journal : Journal) :
    (visited halted cycle budget state).getLast?
      = some (cyclesUntilHalted halted cycle budget state journal).2.1 := by
  -- Induction along `visited`, which branches as the loop does.
  fun_induction visited halted cycle budget state generalizing journal with
  | case1 state =>
      rw [cyclesUntilHalted]
      split <;> rfl
  | case2 budget state h =>
      rw [cyclesUntilHalted_halted h]
      rfl
  | case3 budget state h next notes htaken ih =>
      rw [cyclesUntilHalted_succ (Bool.eq_false_iff.mpr h) htaken, List.getLast?_cons,
        ih (journal.record notes)]
      rfl
  | case4 budget state h fault stuck notes htaken =>
      rw [cyclesUntilHalted_faulted (Bool.eq_false_iff.mpr h) htaken budget.succ_pos]
      rfl

/-! ### The counters of a run -/

/-- The counters of a run, one after the other, never get out of hand:

- `chained`: from each to the next one, no counter moves by more than one;
- `atMost`: none of them is ever beyond the limit. -/
structure Limited (limit : Nat) (course : List Counters) : Prop where
  chained : course.IsChain Counters.Next
  atMost : ∀ counters ∈ course, counters.AtMost limit

/-- The limit on the counters of a run may be loosened. -/
theorem Limited.mono {limit more : Nat} {course : List Counters} (h : Limited limit course)
    (hmore : limit ≤ more) : Limited more course where
  chained := h.chained
  atMost := fun counters hcounters => (h.atMost counters hcounters).mono hmore

/-- Without counters there is nothing to limit. -/
theorem limited_nil (limit : Nat) : Limited limit [] where
  chained := .nil
  atMost := by
    intro counters hcounters
    cases hcounters

variable {count : S → Counters}
  (hnext : ∀ state, halted state = false → (count state).Next (count (cycle state).state))

include hnext

/-- The counters of neighbouring states are next to each other. This holds of the last cycle as
well, which may fault. -/
theorem chained_visited (budget : Nat) (state : S) :
    ((visited halted cycle budget state).map count).IsChain Counters.Next := by
  -- Induction along the loop. A cycle that faults leaves a state too, and moves no counter by more
  -- than one.
  fun_induction visited halted cycle budget state with
  | case1 state => exact .singleton _
  | case2 budget state h => exact .singleton _
  | case3 budget state h next notes htaken ih =>
      have hfirst := hnext state (Bool.eq_false_iff.mpr h)
      rw [htaken] at hfirst
      obtain ⟨rest, hrest⟩ := exists_visited_eq_cons halted cycle budget next
      rw [hrest] at ih ⊢
      exact .cons_cons hfirst ih
  | case4 budget state h fault stuck notes htaken =>
      have hfirst := hnext state (Bool.eq_false_iff.mpr h)
      rw [htaken] at hfirst
      exact .cons_cons hfirst (.singleton _)

/-- Behind every cycle of the budget the limit is one more. A state that the loop comes through is
behind at most as many cycles as the budget says. -/
theorem atMost_visited {limit : Nat} (budget : Nat) (state : S)
    (hstate : (count state).AtMost limit) :
    ∀ later ∈ visited halted cycle budget state, (count later).AtMost (limit + budget) := by
  -- A cycle that is taken off the budget raises the limit by one.
  fun_induction visited halted cycle budget state generalizing limit with
  | case1 state =>
      intro later hlater
      obtain rfl := List.mem_singleton.mp hlater
      exact hstate
  | case2 budget state h =>
      intro later hlater
      obtain rfl := List.mem_singleton.mp hlater
      exact hstate.mono (Nat.le_add_right _ _)
  | case3 budget state h next notes htaken ih =>
      have hfirst := hstate.next (hnext state (Bool.eq_false_iff.mpr h))
      rw [htaken] at hfirst
      intro later hlater
      rcases List.mem_cons.mp hlater with rfl | hlater
      · exact hstate.mono (Nat.le_add_right _ _)
      · exact (ih hfirst later hlater).mono (by omega)
  | case4 budget state h fault stuck notes htaken =>
      have hfirst := hstate.next (hnext state (Bool.eq_false_iff.mpr h))
      rw [htaken] at hfirst
      intro later hlater
      rcases List.mem_pair.mp hlater with rfl | rfl
      · exact hstate.mono (Nat.le_add_right _ _)
      · exact hfirst.mono (by omega)

/-- If no cycle moves a counter by more than one, no counter of a run gets beyond the budget. -/
theorem limited_visited {start : S} (hstart : count start = {}) (budget : Nat) :
    Limited budget ((visited halted cycle budget start).map count) where
  chained := chained_visited hnext budget start
  atMost := by
    intro counters hcounters
    obtain ⟨state, hstate, rfl⟩ := List.mem_map.mp hcounters
    have hzero : (count start).AtMost 0 := hstart ▸ Counters.atMost_zero
    exact Nat.zero_add budget ▸ atMost_visited hnext budget start hzero state hstate

end Visited

end TapeBench
