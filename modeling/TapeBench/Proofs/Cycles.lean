import TapeBench.Cycles
import TapeBench.Proofs.Journal

/-!
# `TapeBench.Proofs.Cycles`: sequences of cycles and the loop that takes them

`Cycled halted cycle n state notes last` says that `n` cycles lead from `state` to `last` and
leave `notes` behind, that none of them faults, and that none begins in a halted state. What the
loop `cyclesUntilHalted` gives is read off such a sequence.

* `cyclesUntilHalted_of_cycled`: a sequence within the budget can be taken off the front of a run.
* `cyclesUntilHalted_of_lt`: a sequence longer than the budget ends the run out of budget.
* `cyclesUntilHalted_cases`: every run is such a sequence with one of the three ends behind it.
* `Lockstep.run`: two loops whose cycles agree end alike, and their notes agree as they do in each
  cycle.
-/

set_option autoImplicit false

namespace TapeBench

variable {S : Type} {halted : S → Bool} {cycle : S → Step S Unit}

/-- If two actions one after the other give a value, both gave one. This takes a sequence of actions
apart without a look into either of them. -/
theorem Step.of_andThen_ok {α β : Type} {first : Step S α} {next : α → S → Step S β} {value : β}
    {last : S} {notes : List Note} (h : first.andThen next = ⟨.ok value, last, notes⟩) :
    ∃ given middle front more, first = ⟨.ok given, middle, front⟩
      ∧ next given middle = ⟨.ok value, last, more⟩ ∧ notes = front ++ more := by
  obtain ⟨result, middle, front⟩ := first
  cases result with
  | error fault => cases h
  | ok given =>
      obtain ⟨result, state, more, hnext⟩ :
          ∃ result state more, next given middle = ⟨result, state, more⟩ := ⟨_, _, _, rfl⟩
      simp only [Step.andThen, hnext] at h
      cases h
      exact ⟨given, middle, front, more, rfl, hnext, rfl⟩

/-! ### Sequences of cycles -/

/-- `n` fault-free cycles lead from one state to another and leave notes behind. None of them
begins in a halted state. -/
inductive Cycled (halted : S → Bool) (cycle : S → Step S Unit) : Nat → S → List Note → S → Prop
  | refl (state : S) : Cycled halted cycle 0 state [] state
  | cons {n : Nat} {state middle last : S} {notes more : List Note}
      (running : halted state = false) (taken : cycle state = ⟨.ok (), middle, notes⟩)
      (rest : Cycled halted cycle n middle more last) :
      Cycled halted cycle (n + 1) state (notes ++ more) last

namespace Cycled

/-- A sequence of one cycle. -/
theorem single {state last : S} {notes : List Note} (running : halted state = false)
    (taken : cycle state = ⟨.ok (), last, notes⟩) :
    Cycled halted cycle 1 state notes last := by
  have h := Cycled.cons running taken (.refl last)
  rwa [List.append_nil] at h

/-- Two sequences one after the other. -/
theorem trans {n m : Nat} {state middle last : S} {notes more : List Note}
    (first : Cycled halted cycle n state notes middle)
    (second : Cycled halted cycle m middle more last) :
    Cycled halted cycle (n + m) state (notes ++ more) last := by
  -- Induction on the first sequence; the second one hangs behind its end.
  induction first with
  | refl => rwa [Nat.zero_add, List.nil_append]
  | @cons n _ _ _ _ _ running taken _ ih =>
      rw [List.append_assoc, Nat.add_right_comm]
      exact .cons running taken (ih second)

/-- A sequence can be cut at every length. If something is left behind the cut, the state at the
cut is not a halted one. -/
theorem split {n : Nat} {state last : S} {notes : List Note}
    (whole : Cycled halted cycle n state notes last) :
    ∀ m < n, ∃ middle front, Cycled halted cycle m state front middle
      ∧ halted middle = false := by
  -- Induction on the sequence: a cut behind its first cycle is a cut of the rest.
  induction whole with
  | refl => intro m hm; omega
  | @cons n state middle last notes more running taken rest ih =>
      intro m hm
      cases m with
      | zero => exact ⟨state, [], .refl state, running⟩
      | succ m =>
          obtain ⟨cut, front, hfront, hcut⟩ := ih m (by omega)
          exact ⟨cut, notes ++ front, .cons running taken hfront, hcut⟩

end Cycled

/-! ### The loop -/

/-- A loop that begins in a halted state ends there, whatever its budget is. -/
theorem cyclesUntilHalted_halted {state : S} (h : halted state = true) (budget : Nat)
    (journal : Journal) :
    cyclesUntilHalted halted cycle budget state journal = (.halted, state, journal) := by
  cases budget <;> simp [cyclesUntilHalted, h]

/-- A loop without a budget takes no cycle. -/
theorem cyclesUntilHalted_zero {state : S} (h : halted state = false) (journal : Journal) :
    cyclesUntilHalted halted cycle 0 state journal = (.exhausted, state, journal) := by
  simp [cyclesUntilHalted, h]

/-- A cycle that faults ends the loop. -/
theorem cyclesUntilHalted_faulted {state last : S} {fault : Fault} {notes : List Note}
    (running : halted state = false) (taken : cycle state = ⟨.error fault, last, notes⟩)
    {budget : Nat} (h : 0 < budget) (journal : Journal) :
    cyclesUntilHalted halted cycle budget state journal
      = (.faulted fault, last, journal.record notes) := by
  obtain ⟨budget, rfl⟩ := Nat.exists_eq_succ_of_ne_zero (Nat.ne_of_gt h)
  simp [cyclesUntilHalted, running, taken]

/-- A cycle that does not fault is taken off the budget. -/
theorem cyclesUntilHalted_succ {state middle : S} {notes : List Note}
    (running : halted state = false) (taken : cycle state = ⟨.ok (), middle, notes⟩)
    (budget : Nat) (journal : Journal) :
    cyclesUntilHalted halted cycle (budget + 1) state journal
      = cyclesUntilHalted halted cycle budget middle (journal.record notes) := by
  simp [cyclesUntilHalted, running, taken]

/-- A sequence of cycles within the budget is the beginning of the run, which goes on with the
budget that is left and with the notes of the cycles in its journal. -/
theorem cyclesUntilHalted_of_cycled {n : Nat} {state last : S} {notes : List Note}
    (h : Cycled halted cycle n state notes last) {budget : Nat} (hn : n ≤ budget)
    (journal : Journal) :
    cyclesUntilHalted halted cycle budget state journal
      = cyclesUntilHalted halted cycle (budget - n) last (journal.record notes) := by
  -- Induction on the sequence: each cycle is taken off the budget and recorded on the way.
  induction h generalizing budget journal with
  | refl => rfl
  | @cons n state middle last notes more running taken rest ih =>
      obtain ⟨budget, rfl⟩ := Nat.exists_eq_succ_of_ne_zero (show budget ≠ 0 by omega)
      rw [Nat.succ_eq_add_one, cyclesUntilHalted_succ running taken, ih (by omega),
        Journal.record_append]
      congr 1
      omega

/-- A sequence of cycles longer than the budget ends the run out of budget, with as many cycles
taken as the budget allows. -/
theorem cyclesUntilHalted_of_lt {n : Nat} {state last : S} {notes : List Note}
    (h : Cycled halted cycle n state notes last) {budget : Nat} (hn : budget < n)
    (journal : Journal) :
    ∃ middle front, Cycled halted cycle budget state front middle
      ∧ cyclesUntilHalted halted cycle budget state journal
        = (.exhausted, middle, journal.record front) := by
  obtain ⟨middle, front, hfront, hmiddle⟩ := h.split budget hn
  refine ⟨middle, front, hfront, ?_⟩
  rw [cyclesUntilHalted_of_cycled hfront (Nat.le_refl budget), Nat.sub_self]
  exact cyclesUntilHalted_zero hmiddle _

/-- Every run is a sequence of cycles behind which the device has halted, the budget is used up,
or one more cycle faults. -/
theorem cyclesUntilHalted_cases (halted : S → Bool) (cycle : S → Step S Unit) (budget : Nat)
    (state : S) (journal : Journal) :
    ∃ n last notes, n ≤ budget ∧ Cycled halted cycle n state notes last
      ∧ ((halted last = true ∧ cyclesUntilHalted halted cycle budget state journal
            = (.halted, last, journal.record notes))
        ∨ (halted last = false ∧ n = budget
          ∧ cyclesUntilHalted halted cycle budget state journal
            = (.exhausted, last, journal.record notes))
        ∨ (halted last = false ∧ n < budget ∧ ∃ fault stuck more,
            cycle last = ⟨.error fault, stuck, more⟩
            ∧ cyclesUntilHalted halted cycle budget state journal
              = (.faulted fault, stuck, journal.record (notes ++ more)))) := by
  -- Induction on the budget. A first cycle that does not fault is put in front of the sequence that
  -- the rest of the budget allows.
  induction budget generalizing state journal with
  | zero =>
      refine ⟨0, state, [], Nat.le_refl 0, .refl state, ?_⟩
      cases h : halted state with
      | true => exact .inl ⟨rfl, cyclesUntilHalted_halted h 0 journal⟩
      | false => exact .inr (.inl ⟨rfl, rfl, cyclesUntilHalted_zero h journal⟩)
  | succ budget ih =>
      cases h : halted state with
      | true =>
          exact ⟨0, state, [], Nat.zero_le _, .refl state,
            .inl ⟨h, cyclesUntilHalted_halted h _ journal⟩⟩
      | false =>
          obtain ⟨result, middle, notes, hcycle⟩ :
              ∃ result middle notes, cycle state = ⟨result, middle, notes⟩ := ⟨_, _, _, rfl⟩
          cases result with
          | error fault =>
              refine ⟨0, state, [], Nat.zero_le _, .refl state, .inr (.inr ⟨h, by omega, ?_⟩)⟩
              exact ⟨fault, middle, notes, hcycle,
                cyclesUntilHalted_faulted h hcycle (Nat.succ_pos budget) journal⟩
          | ok value =>
              obtain ⟨n, last, more, hn, hseq, hend⟩ := ih middle (journal.record notes)
              refine ⟨n + 1, last, notes ++ more, by omega, .cons h hcycle hseq, ?_⟩
              rw [cyclesUntilHalted_succ h hcycle, Journal.record_append]
              rcases hend with hend | ⟨hlast, rfl, hend⟩
                | ⟨hlast, hlt, fault, stuck, others, hfault, hend⟩
              · exact .inl hend
              · exact .inr (.inl ⟨hlast, rfl, hend⟩)
              · refine .inr (.inr ⟨hlast, by omega, fault, stuck, others, hfault, ?_⟩)
                rw [hend, List.append_assoc, Journal.record_append journal notes]

/-! ### Two loops in lockstep -/

/-- Two loops in lockstep under a relation on their states: related states are halted together,
and a cycle from related states either is fault-free on both sides and leads to related states, or
faults alike. Either way the notes of both sides agree under the views taken of them. -/
structure Lockstep {S T α : Type} (haltedS : S → Bool) (cycleS : S → Step S Unit)
    (haltedT : T → Bool) (cycleT : T → Step T Unit) (viewS viewT : Note → Option α)
    (related : S → T → Prop) : Prop where
  halted : ∀ s t, related s t → haltedS s = haltedT t
  cycle : ∀ s t, related s t → haltedS s = false →
    ∃ result s' t' notes notes', cycleS s = ⟨result, s', notes⟩ ∧ cycleT t = ⟨result, t', notes'⟩
      ∧ notes.filterMap viewS = notes'.filterMap viewT ∧ (result = .ok () → related s' t')

namespace Lockstep

variable {T α : Type} {haltedS : S → Bool} {cycleS : S → Step S Unit} {haltedT : T → Bool}
  {cycleT : T → Step T Unit} {viewS viewT : Note → Option α} {related : S → T → Prop}

/-- Loops in lockstep end alike under every budget. Unless a cycle faulted, they end in related
states. The budget of both is the same, so it is enough that one cycle corresponds to one. The two
journals may hold different notes, of which the views agree. -/
theorem run (pair : Lockstep haltedS cycleS haltedT cycleT viewS viewT related) (budget : Nat)
    {s : S} {t : T} (h : related s t) (journalS journalT : Journal) :
    ∃ stop s' t' notes notes',
      cyclesUntilHalted haltedS cycleS budget s journalS = (stop, s', journalS.record notes)
      ∧ cyclesUntilHalted haltedT cycleT budget t journalT = (stop, t', journalT.record notes')
      ∧ notes.filterMap viewS = notes'.filterMap viewT
      ∧ ((∀ fault, stop ≠ .faulted fault) → related s' t') := by
  -- Induction on the budget. `halted` keeps one loop from ending before the other, and `cycle`
  -- carries the relation over to what is left of the budget.
  induction budget generalizing s t journalS journalT with
  | zero =>
      have hhalted := pair.halted s t h
      cases hs : haltedS s with
      | true =>
          exact ⟨.halted, s, t, [], [], cyclesUntilHalted_halted hs 0 _,
            cyclesUntilHalted_halted (hhalted ▸ hs) 0 _, rfl, fun _ => h⟩
      | false =>
          exact ⟨.exhausted, s, t, [], [], cyclesUntilHalted_zero hs _,
            cyclesUntilHalted_zero (hhalted ▸ hs) _, rfl, fun _ => h⟩
  | succ budget ih =>
      have hhalted := pair.halted s t h
      cases hs : haltedS s with
      | true =>
          exact ⟨.halted, s, t, [], [], cyclesUntilHalted_halted hs _ _,
            cyclesUntilHalted_halted (hhalted ▸ hs) _ _, rfl, fun _ => h⟩
      | false =>
          have ht : haltedT t = false := hhalted ▸ hs
          obtain ⟨result, s', t', notes, notes', hcs, hct, hview, hnext⟩ := pair.cycle s t h hs
          cases result with
          | error fault =>
              exact ⟨.faulted fault, s', t', notes, notes',
                cyclesUntilHalted_faulted hs hcs (Nat.succ_pos budget) _,
                cyclesUntilHalted_faulted ht hct (Nat.succ_pos budget) _, hview,
                fun hstop => absurd rfl (hstop fault)⟩
          | ok value =>
              obtain ⟨stop, s'', t'', more, more', hrs, hrt, hviewMore, hrel⟩ :=
                ih (hnext rfl) (journalS.record notes) (journalT.record notes')
              refine ⟨stop, s'', t'', notes ++ more, notes' ++ more', ?_, ?_, ?_, hrel⟩
              · rw [cyclesUntilHalted_succ hs hcs, hrs, Journal.record_append]
              · rw [cyclesUntilHalted_succ ht hct, hrt, Journal.record_append]
              · rw [List.filterMap_append, List.filterMap_append, hview, hviewMore]

end Lockstep

end TapeBench
