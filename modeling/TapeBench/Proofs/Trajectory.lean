import TapeBench.Proofs.Cycles

/-!
# `TapeBench.Proofs.Trajectory`: where cycles lead, and what ends them

From a state, cycles lead to one state after the other until one of them faults. Along this way lie
the first state that reports a halt and the first cycle that faults, if there are any. Neither
depends on how many cycles a run may take.

* `stateAfter`: the state behind a number of cycles.
* `HaltsAt`: the least number of cycles behind which a halt is reported.
* `FaultsAt`: the first cycle that faults.
* `haltsAt_iff`, `faultsAt_iff`: both, as sequences of cycles.
-/

set_option autoImplicit false

namespace TapeBench

variable {S α : Type}

/-- The state that an action leaves, unless it faults. -/
def Step.survivor? (step : Step S α) : Option S :=
  match step with
  | ⟨.ok _, state, _⟩ => some state
  | ⟨.error _, _, _⟩ => none

/-- The state behind the first `n` cycles, unless one of them faults. -/
def stateAfter (cycle : S → Step S Unit) (start : S) : (n : Nat) → Option S
  | 0 => some start
  | n + 1 => (stateAfter cycle start n).bind fun state => (cycle state).survivor?

/-- No state behind fewer than `n` cycles reports a halt. -/
def RunsFor (halted : S → Bool) (cycle : S → Step S Unit) (start : S) (n : Nat) : Prop :=
  ∀ k < n, ∀ state, stateAfter cycle start k = some state → halted state = false

/-- The first halt on the way from `start`:

- `reached`: `n` fault-free cycles lead to `last`;
- `reported`: a halt is reported there;
- `least`: and nowhere before. -/
structure HaltsAt (halted : S → Bool) (cycle : S → Step S Unit) (start : S) (n : Nat) (last : S) :
    Prop where
  reached : stateAfter cycle start n = some last
  reported : halted last = true
  least : RunsFor halted cycle start n

/-- The first fault on the way from `start`: the cycle behind `m` fault-free ones faults with
`fault`, and leaves `stuck`. -/
def FaultsAt (cycle : S → Step S Unit) (start : S) (m : Nat) (fault : Fault) (stuck : S) : Prop :=
  ∃ state notes, stateAfter cycle start m = some state
    ∧ cycle state = ⟨.error fault, stuck, notes⟩

variable {halted : S → Bool} {cycle : S → Step S Unit} {start middle last stuck : S} {n m : Nat}
  {notes : List Note} {fault : Fault}

/-- A cycle has a survivor if it does not fault, and this is the state that it leaves. -/
theorem Step.survivor?_eq_some_iff {step : Step S Unit} :
    step.survivor? = some last ↔ ∃ notes, step = ⟨.ok (), last, notes⟩ := by
  obtain ⟨result, state, notes⟩ := step
  cases result <;> simp [survivor?]

/-- The first of some cycles can be taken off. -/
theorem stateAfter_cons (taken : cycle start = ⟨.ok (), middle, notes⟩) (n : Nat) :
    stateAfter cycle start (n + 1) = stateAfter cycle middle n := by
  -- Induction on the number of cycles behind the first.
  induction n with
  | zero => simp [stateAfter, taken, Step.survivor?]
  | succ n ih => rw [stateAfter, ih, stateAfter]

/-- A sequence of cycles leads to the state behind as many cycles. -/
theorem stateAfter_of_cycled (h : Cycled halted cycle n start notes last) :
    stateAfter cycle start n = some last := by
  induction h with
  | refl => rfl
  | cons _ taken _ ih => rw [stateAfter_cons taken, ih]

/-- No cycle of a sequence begins in a halted state. -/
theorem runsFor_of_cycled (h : Cycled halted cycle n start notes last) :
    RunsFor halted cycle start n := by
  intro k hk state hstate
  obtain ⟨middle, front, hfront, hmiddle⟩ := h.split k hk
  rw [stateAfter_of_cycled hfront] at hstate
  cases hstate
  exact hmiddle

/-- A machine that runs for some time runs for every shorter time. -/
theorem RunsFor.mono (h : RunsFor halted cycle start n) (hm : m ≤ n) :
    RunsFor halted cycle start m :=
  fun k hk => h k (Nat.lt_of_lt_of_le hk hm)

/-- The cycles that lead to a state are a sequence, if none of them begins in a halted state.
`stateAfter` would go on past a halt, as it knows of none. -/
theorem exists_cycled (hreached : stateAfter cycle start n = some last)
    (hruns : RunsFor halted cycle start n) :
    ∃ notes, Cycled halted cycle n start notes last := by
  -- Induction on the number of cycles; the last of them hangs behind the others.
  induction n generalizing last with
  | zero =>
      cases hreached
      exact ⟨[], .refl start⟩
  | succ n ih =>
      obtain ⟨middle, hmiddle, hlast⟩ := Option.bind_eq_some_iff.mp hreached
      obtain ⟨notes, hnotes⟩ := ih hmiddle (hruns.mono (Nat.le_succ n))
      obtain ⟨more, htaken⟩ := Step.survivor?_eq_some_iff.mp hlast
      exact ⟨notes ++ more,
        hnotes.trans (.single (hruns n (Nat.lt_succ_self n) middle hmiddle) htaken)⟩

/-- The first halt is at the end of a sequence of cycles. -/
theorem haltsAt_iff :
    HaltsAt halted cycle start n last
      ↔ halted last = true ∧ ∃ notes, Cycled halted cycle n start notes last := by
  constructor
  · rintro ⟨hreached, hhalted, hleast⟩
    exact ⟨hhalted, exists_cycled hreached hleast⟩
  · rintro ⟨hhalted, notes, hcycled⟩
    exact ⟨stateAfter_of_cycled hcycled, hhalted, runsFor_of_cycled hcycled⟩

/-- A first fault that no halt precedes is behind a sequence of cycles, and such a sequence with a
fault behind it has no other fault and no halt in it. -/
theorem faultsAt_iff :
    FaultsAt cycle start m fault stuck ∧ RunsFor halted cycle start (m + 1)
      ↔ ∃ last notes more, Cycled halted cycle m start notes last ∧ halted last = false
        ∧ cycle last = ⟨.error fault, stuck, more⟩ := by
  constructor
  · rintro ⟨⟨last, more, hreached, hfault⟩, hruns⟩
    obtain ⟨notes, hcycled⟩ := exists_cycled hreached (hruns.mono (Nat.le_succ m))
    exact ⟨last, notes, more, hcycled, hruns m (Nat.lt_succ_self m) last hreached, hfault⟩
  · rintro ⟨last, notes, more, hcycled, hlast, hfault⟩
    have hreached := stateAfter_of_cycled hcycled
    refine ⟨⟨last, more, hreached, hfault⟩, ?_⟩
    intro k hk state hstate
    rcases Nat.lt_succ_iff_lt_or_eq.mp hk with hlt | rfl
    · exact runsFor_of_cycled hcycled k hlt state hstate
    · rw [hreached] at hstate
      cases hstate
      exact hlast

end TapeBench
