import TapeBench.Proofs.Aborted
import TapeBench.Proofs.Counts
import TapeBench.Proofs.Course
import TapeBench.Proofs.Serial.Pace
import TapeBench.Proofs.Trace

/-!
# `TapeBench.Proofs.Limits`: the budget bounds every counter

The three drivers bump their counters at different moments, and a cycle that faults may have bumped
some of them and not the others. Still no cycle bumps a counter twice: it is one unit of time, and
transfers of one operation do not share it. So the budget bounds every counter of a run, whatever
the budget is and whatever the device does.

The counters of a run are read off the states that its loop comes through, and the last of them off
the state in which it ends. The serial link needs an argument here. Its loop looks at the budget
behind each poll, and the loop that lists the states looks in front of it. But the poll that finds
the device halted moves no counter, so both of them end with the same counters.

* `Exclusive`, `Step.Accounts.ticks_tally`: a cycle counts each operation once at most.
* `Clocking.limited_course`: the counters of a clocked run, if a cycle that faults does not count.
* `Serial.counters_of_loop`: the two loops of the serial link end with the same counters.
* `Connection.course`: the counters of a run over any connection, one after the other.
* `Connection.getLast?_course`: the last of them are those of the ending of the run.
* `Connection.limited_course`: none of them gets beyond the budget.
-/

set_option autoImplicit false

namespace TapeBench

open Bus (Op)
open Memory (Rom)

/-! ### Transfers of one operation -/

/-- Transfers of the same operation are in different cycles. -/
def Exclusive (order : Transfer → Transfer → Prop) : Prop :=
  ∀ first second : Transfer, order first second → first.request.op = second.request.op →
    first.time < second.time

/-- If all transfers are in different cycles, so are those of one operation. -/
theorem Transfer.exclusive_before : Exclusive Before :=
  fun _ _ h _ => h

/-- A write and a read may share a cycle, and two transfers of one operation may not. -/
theorem Transfer.exclusive_beforeOrWith : Exclusive BeforeOrWith := by
  rintro first second (hbefore | ⟨-, hwrite, hread⟩) hsame
  · exact hbefore
  · rw [hwrite, hread] at hsame
    cases hsame

section Accounts

variable {order : Transfer → Transfer → Prop} (hexclusive : Exclusive order)

include hexclusive

/-- Each operation took place once in a cycle at most. -/
theorem Account.countP_op_le {start stop : Nat} {bus next : Peripheral} {trace : List TraceEvent}
    (h : Account order start stop bus trace next) (op : Op) :
    ((transfers trace).countP fun transfer => transfer.request.op = op) ≤ stop - start := by
  refine h.countP_le _ ?_
  intro first second horder hfirst hsecond
  rw [decide_eq_true_eq] at hfirst hsecond
  exact hexclusive first second horder (hfirst.trans hsecond.symm)

/-- A cycle counts each operation once at most. -/
theorem Step.Accounts.ticks_tally {S α : Type} {stores : S → Peripheral} {time : Nat}
    {bus : Peripheral} {step : Step S α} (h : step.Accounts stores order time bus) (op : Op) :
    Ticks (bus.tally.get op) ((stores step.state).tally.get op) := by
  have hcount := h.account.tally_eq op
  have hle := h.account.countP_op_le hexclusive op
  unfold Ticks
  omega

end Accounts

/-! ### Clocked runs -/

namespace Clocking

variable {σ S : Type} {clocking : Clocking σ S}

/-- The counters of a clocked run: in front of each cycle, and at the end. -/
def course (clocking : Clocking σ S) (budget : Nat) (start : S) : List Counters :=
  (visited clocking.halted clocking.cycle budget start).map clocking.counters

/-- The last counters of a clocked run are those of its ending. -/
theorem getLast?_course {stores : S → Peripheral}
    (htally : ∀ state, clocking.tally state = (stores state).tally) (budget : Nat) (start : S) :
    (clocking.course budget start).getLast?
      = some (clocking.ending stores budget start).counters := by
  -- Both the course and the ending are read off this loop.
  obtain ⟨stop, last, after, hloop⟩ : ∃ stop last after,
      cyclesUntilHalted clocking.halted clocking.cycle budget start .silent = (stop, last, after) :=
    ⟨_, _, _, rfl⟩
  rw [course, List.getLast?_map, getLast?_visited _ _ _ _ .silent, ending_of_loop stores hloop,
    hloop, Ending.counters, ← htally]
  rfl

/-- No counter of a clocked run gets beyond the budget, if a cycle that faults does not count. The
counts of the operations are bounded by the cycles through the account of the run, since no two
transfers of one operation share a cycle. -/
theorem limited_course {stores : S → Peripheral} {order : Transfer → Transfer → Prop} {start : S}
    (haccountable : Accountable clocking.halted clocking.cycle stores clocking.cycles order)
    (htally : ∀ state, clocking.tally state = (stores state).tally) (hexclusive : Exclusive order)
    (hfaults : ∀ state fault, (clocking.cycle state).result = .error fault →
      clocking.cycles (clocking.cycle state).state = clocking.cycles state)
    (hzero : clocking.cycles start = 0) (hfresh : clocking.tally start = {}) (budget : Nat) :
    Limited budget (clocking.course budget start) := by
  refine limited_visited ?_ ?_ budget
  · intro state hrunning
    refine ⟨?_, .inl rfl, ?_⟩
    · obtain ⟨result, next, notes, htaken⟩ :
          ∃ result next notes, clocking.cycle state = ⟨result, next, notes⟩ := ⟨_, _, _, rfl⟩
      have hkept := hfaults state
      rw [htaken] at hkept ⊢
      cases result with
      | ok value => exact .inr (haccountable.next_time state next notes hrunning htaken)
      -- Images that do not load leave an empty course.
      | error fault => exact .inl (hkept fault rfl)
    · intro op
      have hticks := (haccountable.accounts state hrunning).ticks_tally hexclusive op
      rwa [← htally, ← htally] at hticks
  · rw [counters, hzero, hfresh]

end Clocking

/-! ### The addressed bus -/

namespace Addressed

variable {σ : Type} (pins : Device σ)

/-- A cycle that faults does not count. -/
theorem cycles_of_error {rig : Rig σ} {fault : Fault}
    (h : (rig.cycle pins).result = .error fault) :
    (rig.cycle pins).state.driver.cycles = rig.driver.cycles := by
  have hact : (Drive.cycle.act pins rig).result = .error fault := h
  show (Drive.cycle.act pins rig).state.driver.cycles = rig.driver.cycles
  cases hphase : rig.driver.phase with
  | low =>
      rw [(act_low_of_error hphase hact).2]
      rfl
  | high request => rw [act_starved pins .cycle hphase (starved_of_act hphase hact)]

/-- The counters of a run over the addressed bus stay within the budget. -/
theorem limited_course {config : Config} {case : Case} {bus : Peripheral}
    (hstores : case.stores config = .ok bus) (device : σ) (budget : Nat) :
    Limited budget (pins.clocking.course budget (pins.ready config bus device)) := by
  obtain ⟨program, data, -, -, rfl⟩ := Case.exists_of_stores hstores
  exact Clocking.limited_course (accountable pins) (fun _ => rfl) Transfer.exclusive_before
    (fun _ _ h => cycles_of_error pins h) rfl rfl budget

end Addressed

/-! ### Separate pins -/

namespace SeparatePin

variable {σ : Type} (pins : Device σ)

/-- A cycle that faults does not count. -/
theorem cycles_of_error {rig : Rig σ} {fault : Fault}
    (h : (rig.cycle pins).result = .error fault) :
    (rig.cycle pins).state.driver.cycles = rig.driver.cycles := by
  obtain ⟨-, -, hcycle⟩ := cycle_of_error h
  rw [hcycle, cycles_collect]
  rfl

/-- The counters of a run over separate pins stay within the budget. -/
theorem limited_course (config : Config) (case : Case) (program : Rom) (device : σ)
    (budget : Nat) :
    Limited budget (pins.clocking.course budget (pins.ready config case program device)) :=
  Clocking.limited_course (accountable program pins) (fun _ => rfl)
    Transfer.exclusive_beforeOrWith (fun _ _ h => cycles_of_error pins h) rfl rfl budget

end SeparatePin

/-! ### The serial link -/

namespace Serial

variable {σ : Type} {link : Link σ}

/-- The counters of a run over the serial link: in front of each poll, and at the end. A device that
cannot be reset and enabled is not polled. -/
def Link.course (link : Link σ) (config : Config) (bus : Peripheral) (device : σ) :
    List Counters :=
  match link.start config bus device with
  | ⟨.error _, rig, _⟩ => [rig.counters]
  | ⟨.ok (), rig, _⟩ =>
    (visited (Rig.stopped link) (Rig.polled link) (config.cycleBudget.toNat - 1 + 1) rig).map
      Rig.counters

/-- The loop of a run stops with the counters of its last poll, or with those in front of the poll
that found the device halted. -/
theorem counters_of_loop {spare : Nat} {rig last : Rig σ} {stop : Stop} {journal after : Journal}
    (h : link.pollsUntilHalted spare rig journal = (stop, last, after)) :
    (visited (Rig.stopped link) (Rig.polled link) (spare + 1) rig).getLast?.map Rig.counters
      = some last.counters := by
  obtain ⟨n, next, notes, hpolls, hend⟩ := pollsUntilHalted_cases link spare rig journal
  rw [getLast?_visited _ _ _ _ journal]
  rcases hend with ⟨hn, stuck, more, hpoll, hloop⟩ | ⟨rfl, hloop⟩
    | ⟨hn, fault, stuck, more, hpoll, hloop⟩
  · obtain ⟨rfl, rfl⟩ := Rig.poll_of_found_halted hpoll
    rw [h] at hloop
    cases hloop
    rw [cyclesUntilHalted_of_cycled hpolls (Nat.le_succ_of_le hn),
      cyclesUntilHalted_halted (stopped_iff.mpr hpoll)]
    rfl
  · rw [h] at hloop
    cases hloop
    -- The clocked loop looks for a halt once more, but it takes no other poll.
    rw [cyclesUntilHalted_of_cycled hpolls (Nat.le_refl _), Nat.sub_self, cyclesUntilHalted]
    split <;> rfl
  · rw [h] at hloop
    cases hloop
    rw [cyclesUntilHalted_of_cycled hpolls (Nat.le_succ_of_le hn),
      cyclesUntilHalted_faulted (stopped_of_error hpoll) (polled_of_error hpoll) (by omega)]
    rfl

/-- The last counters of a run over the serial link are those of its ending. A link that cannot be
started has one counter in its course, which is the ending already. -/
theorem getLast?_course (link : Link σ) (config : Config) (bus : Peripheral) (device : σ) :
    (link.course config bus device).getLast? = some (link.ending config bus device).counters := by
  obtain ⟨result, rig, opening, hstart⟩ : ∃ result rig opening,
      link.start config bus device = ⟨result, rig, opening⟩ := ⟨_, _, _, rfl⟩
  cases result with
  | error fault =>
      simp only [Link.course, hstart, ending_of_fault hstart]
      rfl
  | ok value =>
      obtain ⟨stop, last, after, hloop⟩ : ∃ stop last after,
          link.pollsUntilHalted (config.cycleBudget.toNat - 1) rig .silent
            = (stop, last, after) :=
        ⟨_, _, _, rfl⟩
      rw [ending_of_loop hstart hloop]
      simp only [Link.course, hstart]
      rw [List.getLast?_map]
      exact counters_of_loop hloop

/-- What a poll leaves does not depend on whether its finding is looked at. -/
theorem state_polled (link : Link σ) (rig : Rig σ) :
    (rig.polled link).state = (rig.poll link).state := by
  rw [Rig.polled]
  split <;> rename_i hpoll <;> rw [hpoll]

/-- No poll moves a counter by more than one: it pulses the clock once and serves one transaction,
if it does either. -/
theorem next_polled (link : Link σ) {rig : Rig σ} (hrunning : rig.stopped link = false) :
    rig.counters.Next (rig.polled link).state.counters := by
  have haccounts := (accountable link).accounts rig hrunning
  obtain ⟨hsteps, hcommits⟩ := rig.counts_poll link
  refine ⟨?_, ?_, haccounts.ticks_tally Transfer.exclusive_before⟩
  · rw [state_polled]
    exact hsteps
  · -- The host counts the transfers of the poll, and they are all at one time.
    have hle := (accounts_poll link rig).account.countP_le (fun _ => true) fun _ _ h _ _ => h
    rw [List.countP_true] at hle
    rw [state_polled]
    show Ticks rig.host.commits (rig.poll link).state.host.commits
    unfold Ticks
    omega

/-- A run begins with counters at zero, between two transactions. -/
theorem host_start (link : Link σ) (config : Config) (bus : Peripheral) (device : σ) :
    ∃ inputs, (link.start config bus device).state.host = { inputs } := by
  rw [Link.start]
  generalize link.powerUp config.serialResetHoldNs device = power
  obtain ⟨result, next, notes⟩ := power
  refine Step.state_andThen (P := fun rig : Rig σ => ∃ inputs, rig.host = { inputs }) ⟨_, rfl⟩ ?_
  intro _
  simp only [Rig.enable]
  rw [Rig.sendInputs_eq]
  exact ⟨_, rfl⟩

section Runs

variable {config : Config} {case : Case} {bus : Peripheral} (hstores : case.stores config = .ok bus)
  (device : σ)

include hstores

/-- A run over the serial link begins with all counters at zero. -/
theorem counters_start (link : Link σ) :
    (link.start config bus device).state.counters = {} := by
  obtain ⟨program, data, -, -, rfl⟩ := Case.exists_of_stores hstores
  obtain ⟨inputs, hhost⟩ := host_start link config _ device
  rw [Rig.counters, hhost, (quiet_start link config _ device).kept]

/-- The counters of a run over the serial link stay within the budget, and a budget of zero is one
of one. The loop is given one poll less than the budget, and makes one more than it is given. -/
theorem limited_course (link : Link σ) :
    Limited (config.cycleBudget.toNat - 1 + 1) (link.course config bus device) := by
  have hzero := counters_start hstores device link
  obtain ⟨result, rig, opening, hstart⟩ : ∃ result rig opening,
      link.start config bus device = ⟨result, rig, opening⟩ := ⟨_, _, _, rfl⟩
  rw [hstart] at hzero
  simp only [Link.course, hstart]
  cases result with
  | error fault =>
      refine ⟨.singleton _, ?_⟩
      intro counters hcounters
      rw [List.mem_singleton.mp hcounters, hzero]
      exact Counters.atMost_zero.mono (Nat.zero_le _)
  | ok value => exact limited_visited (fun _ hrunning => next_polled link hrunning) hzero _

end Runs

end Serial

/-! ### Every connection -/

namespace Connection

variable {σ : Type}

/-- The counters of a run: in front of each cycle or poll, and at the end. Without stores there is
no run. This is the loop of the run with the states that it passes through written down.
`Connection.getLast?_course` ties it to the run itself. -/
def course (connection : Connection σ) (config : Config) (case : Case) (device : σ) :
    List Counters :=
  match connection with
  | addressed pins =>
    match case.stores config with
    | .error _ => []
    | .ok bus => pins.clocking.course config.cycleBudget.toNat (pins.ready config bus device)
  | separatePin pins =>
    match Rom.load case.program with
    | .error _ => []
    | .ok program =>
      pins.clocking.course config.cycleBudget.toNat (pins.ready config case program device)
  | serial link =>
    match case.stores config with
    | .error _ => []
    | .ok bus => link.course config bus device

/-- Without stores nothing is counted: a case that is refused for its size never comes to a device.
-/
theorem course_of_error {connection : Connection σ} {config : Config} {case : Case} {fault : Fault}
    (hstores : connection.freshStores config case = .error fault) (device : σ) :
    connection.course config case device = [] := by
  cases connection with
  | addressed pins =>
      rw [freshStores] at hstores
      simp only [course, hstores]
  | separatePin pins =>
      cases hload : Rom.load case.program with
      | error fault => simp only [course, hload]
      | ok program =>
          simp only [freshStores, hload] at hstores
          cases hstores
  | serial link =>
      rw [freshStores] at hstores
      simp only [course, hstores]

/-- The last counters of every run are those of its ending, whatever ended it: a halt, the budget,
or a fault in the middle of a cycle or a poll. -/
theorem getLast?_course {connection : Connection σ} {config : Config} {case : Case}
    {bus : Peripheral} (hstores : connection.freshStores config case = .ok bus) (device : σ) :
    (connection.course config case device).getLast?
      = some (connection.ending config case device bus).counters := by
  cases connection with
  | addressed pins =>
      rw [freshStores] at hstores
      simp only [course, hstores]
      exact Clocking.getLast?_course (fun _ => rfl) _ _
  -- The separate pins have no bus. Their stores are the program, with a data memory nobody asks.
  | separatePin pins =>
      obtain ⟨program, hload, rfl⟩ := exists_load_of_freshStores hstores
      simp only [course, hload]
      exact Clocking.getLast?_course (fun _ => rfl) _ _
  | serial link =>
      rw [freshStores] at hstores
      simp only [course, hstores]
      exact Serial.getLast?_course link config bus device

/-- The budget bounds the counters of every run, or one bounds them if the budget is zero. Only the
serial link needs the one: it polls once before it looks at its budget. -/
theorem limited_course (connection : Connection σ) (config : Config) (case : Case) (device : σ) :
    Limited (max 1 config.cycleBudget.toNat) (connection.course config case device) := by
  cases hstores : connection.freshStores config case with
  | error fault =>
      -- A case that is refused leaves an empty course.
      rw [course_of_error hstores]
      exact limited_nil _
  | ok bus =>
      cases connection with
      | addressed pins =>
          rw [freshStores] at hstores
          simp only [course, hstores]
          exact (Addressed.limited_course pins hstores device _).mono (Nat.le_max_right _ _)
      | separatePin pins =>
          obtain ⟨program, hload, -⟩ := exists_load_of_freshStores hstores
          simp only [course, hload]
          exact (SeparatePin.limited_course pins config case program device _).mono
            (Nat.le_max_right _ _)
      | serial link =>
          rw [freshStores] at hstores
          simp only [course, hstores]
          exact (Serial.limited_course hstores device link).mono (by omega)

end Connection

end TapeBench
