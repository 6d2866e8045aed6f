import TapeBench.Connection
import TapeBench.Proofs.Course
import TapeBench.Proofs.History
import TapeBench.Proofs.Serial.Polls
import TapeBench.Proofs.Verdict

/-!
# `TapeBench.Proofs.Ending`: where a run ends

A run gives a verdict, a device and a journal, and forgets the rest of the state that it ended in.
`Connection.ending` keeps that state: what ended the run, and the device, the stores, the time and
the transactions of a host at that point. It is the state in which the loop of the run stops, or, on
a serial link that cannot be reset and enabled, the one in which the attempt to do so was given up.

The ending decides what the run gives. A run that was faulted gives the fault. A run that was out of
budget times out behind the time of its ending. A run that halted is graded on the output and the
counts of its ending, unless no time has passed. `Connection.closes` says so for every run over
every connection.

A fault on the way cannot be taken for one of the other ends. `Step.Raises` says what an action may
fault with: the input was exhausted, and has been read as far as the fault says, or the device left
the protocol, or the transport failed. Two actions one after the other raise what each of them
raises, so the drivers are looked at part by part.

The loops hand a journal on from cycle to cycle, and none of them looks at it. So the ending is
defined by the loop with a silent journal, and `cyclesUntilHalted_of_journal` and
`pollsUntilHalted_of_journal` say that every other journal leads to the same one.

* `Peripheral.Raises`, `Step.Raises`: the faults that come up on the way.
* `Addressed.raises_cycle`, `SeparatePin.raises_cycle`, `Serial.raises_poll`: no cycle and no poll
  has other faults.
* `Ending`: the state in which a run ends. `Ending.Closes`: what a run gives that ends there.
* `Clocking.ending`, `Serial.Link.ending`: the endings of clocked runs and of runs over the serial
  link.
* `Connection.freshStores`, `Connection.ending`: the stores in front of which a run begins, and the
  ending of a run that begins in front of them.
* `Connection.closes`: the ending of a run decides what it gives.
-/

set_option autoImplicit false

namespace TapeBench

open Bus (Request)
open Memory (Rom)

/-! ### Faults on the way -/

/-- A fault can come up on the way, with these stores behind it. The input has then been read as far
as the fault says. The faults of the other classes are given in front of a run or behind it. -/
def Peripheral.Raises (bus : Peripheral) : Fault → Prop
  | .inputExhausted consumed => bus.channel.consumed = consumed
  | .protocolViolation _ | .link _ => True
  | .outputMismatch _ _ | .timeout _ | .zeroCycle | .programTooLarge _ | .dataImageTooLarge _ =>
    False

/-- A request that fails leaves the stores as they are, and says how far the input was read. -/
theorem Peripheral.raises_of_resolve {bus next : Peripheral} {request : Request} {fault : Fault}
    {notes : List Note} (h : bus.resolve request = ⟨.error fault, next, notes⟩) :
    next.Raises fault := by
  obtain rfl : next = bus := by
    have hkept := state_of_resolve_error (congrArg Step.result h)
    rwa [h] at hkept
  rw [exhausted_of_resolve h]
  rfl

/-- If an action faults, its fault can come up on the way. -/
def Step.Raises {S α : Type} (stores : S → Peripheral) (step : Step S α) : Prop :=
  ∀ fault, step.result = .error fault → (stores step.state).Raises fault

namespace Step

variable {S α β : Type} {stores : S → Peripheral}

/-- An action that gives a value does not fault. -/
theorem raises_done (value : α) (state : S) (notes : List Note) :
    (done value state notes).Raises stores := by
  intro fault hfault
  cases hfault

/-- An action that faults raises its fault, whatever was observed before. -/
theorem Raises.of_fault {fault : Fault} {state : S} (h : (stores state).Raises fault)
    (notes : List Note) : Raises stores (⟨.error fault, state, notes⟩ : Step S α) := by
  intro other hother
  cases hother
  exact h

/-- Two actions one after the other raise what each of them raises. -/
theorem Raises.andThen {first : Step S α} {next : α → S → Step S β} (hfirst : first.Raises stores)
    (hnext : ∀ value, (next value first.state).Raises stores) :
    (first.andThen next).Raises stores := by
  obtain ⟨result, middle, notes⟩ := first
  cases result with
  | error fault => exact .of_fault (hfirst fault rfl) notes
  | ok value => exact hnext value

/-- A larger state has the stores of its part. -/
theorem Raises.within {T : Type} {embed : S → T} {stores : T → Peripheral} {step : Step S α}
    (h : step.Raises fun state => stores (embed state)) : (step.within embed).Raises stores := by
  obtain ⟨result, state, notes⟩ := step
  exact h

end Step

namespace Addressed

variable {σ : Type} (pins : Device σ)

/-- Of the two halves of a cycle, the falling one may starve. The rising one samples and gives a
level, and has nothing to raise. -/
theorem raises_fall (request : Request) (rig : Rig σ) :
    (rig.fall pins request).Raises Rig.bus := by
  obtain ⟨⟨phase, settleNs, cycles⟩, device, bus⟩ := rig
  intro fault h
  by_cases hnone : request.op = .noOp
  · simp only [Rig.fall, commit, hnone, if_true, Step.done] at h
    cases h
  · obtain ⟨result, next, notes, hresolve⟩ :
        ∃ result next notes, bus.resolve request = ⟨result, next, notes⟩ := ⟨_, _, _, rfl⟩
    simp only [Rig.fall, commit, hnone, if_false, hresolve] at h ⊢
    cases result with
    | ok value => cases h
    | error failed =>
        cases h
        exact Peripheral.raises_of_resolve hresolve

/-- So may an advance of the clock, which is one of the two halves. -/
theorem raises_advance (rig : Rig σ) : (rig.advance pins).Raises Rig.bus := by
  rw [Rig.advance]
  split
  · exact Step.raises_done _ _ _
  · exact raises_fall pins _ rig

/-- A cycle over the addressed bus may starve, and in no other way can it fail: a code that names no
operation is one for nothing, and the memories answer at every address. -/
theorem raises_cycle (rig : Rig σ) : (rig.cycle pins).Raises Rig.bus := by
  rw [Rig.cycle]
  refine (raises_advance pins rig).andThen ?_
  intro reached
  cases reached with
  | low => exact Step.raises_done _ _ _
  | high sampled =>
      -- The first advance was the rising half, so a second one follows.
      refine (raises_advance pins _).andThen ?_
      intro _
      exact Step.raises_done _ _ _

end Addressed

namespace SeparatePin

variable {σ : Type}

/-- The streams of a rig as stores, with the program of the run and a data memory that nobody
asks. -/
def Rig.stores (program : Rom) (rig : Rig σ) : Peripheral :=
  ⟨program, .zero, rig.channel, rig.driver.tally⟩

variable (program : Rom)

/-- Collecting a byte does not fault. -/
theorem raises_collect (sampled : Sample) (rig : Rig σ) :
    (rig.collect sampled).Raises (Rig.stores program) := by
  obtain ⟨⟨settleNs, cycles, tally⟩, device, channel⟩ := rig
  rw [Rig.collect]
  split <;> exact Step.raises_done _ _ _

/-- Feeding a byte may starve. The count of consumed bytes in the fault is that of the channel,
which a failed read leaves as it is. -/
theorem raises_feed (pins : Device σ) (sampled : Sample) (rig : Rig σ) :
    (rig.feed pins sampled).Raises (Rig.stores program) := by
  obtain ⟨⟨settleNs, cycles, tally⟩, device, channel⟩ := rig
  rw [Rig.feed]
  split
  · rcases channel.read_cases with ⟨byte, next, lines, hread⟩ | ⟨-, hread⟩
    · simp only [hread]
      exact Step.raises_done _ _ _
    · -- The input is empty and nothing stands in for it, so the channel is left as it was.
      simp only [hread]
      refine .of_fault ?_ _
      rfl
  · exact Step.raises_done _ _ _

/-- A cycle over separate pins may starve, where it feeds a byte. To collect one never fails, and
what follows the feed raises nothing. -/
theorem raises_cycle (pins : Device σ) (rig : Rig σ) :
    (rig.cycle pins).Raises (Rig.stores program) := by
  rw [Rig.cycle]
  -- The four parts of a cycle, of which only the third one may starve.
  refine .andThen (Step.raises_done _ _ _) ?_
  intro sampled
  refine .andThen (raises_collect program sampled _) ?_
  intro _
  refine .andThen (raises_feed program pins sampled _) ?_
  intro _
  exact Step.raises_done _ _ _

end SeparatePin

namespace Serial

variable {σ : Type} (link : Link σ)

/-- A call to the link may fail in the transport. -/
theorem raises_call {S α : Type} (stores : S → Peripheral) (outcome : Except LinkError α × S)
    (notes : List Note) : (Link.call outcome notes).Raises stores := by
  obtain ⟨result, next⟩ := outcome
  cases result with
  | ok value => exact Step.raises_done _ _ _
  | error error =>
      refine .of_fault ?_ _
      exact trivial

/-- Writing the input register may fail in the transport. -/
theorem raises_sendInputs (rig : Rig σ) : (rig.sendInputs link).Raises Rig.bus := by
  obtain ⟨host, device, bus⟩ := rig
  simp only [Rig.sendInputs]
  exact .within (raises_call _ _ _)

/-- So may pulsing the clock. -/
theorem raises_pulse (phase : Phase) (rig : Rig σ) : (rig.pulse link phase).Raises Rig.bus := by
  obtain ⟨host, device, bus⟩ := rig
  obtain ⟨result, next, hcall⟩ : ∃ result next, link.stepClock device = (result, next) :=
    ⟨_, _, rfl⟩
  simp only [Rig.pulse, hcall]
  cases result with
  | ok value => exact Step.raises_done _ _ _
  | error error =>
      refine .of_fault ?_ _
      exact trivial

/-- Entering a phase may starve, if it is the execution phase. The other phases latch a byte and
cannot fail. -/
theorem raises_enter (phase : Phase) (byte : UInt8) (rig : Rig σ) :
    (rig.enter phase byte).Raises Rig.bus := by
  obtain ⟨host, device, bus⟩ := rig
  cases phase with
  | execute =>
      obtain ⟨result, next, notes, hresolve⟩ : ∃ result next notes,
          bus.resolve (host.request byte) = ⟨result, next, notes⟩ := ⟨_, _, _, rfl⟩
      simp only [Rig.enter, Rig.execute, hresolve]
      cases result with
      | ok value => exact Step.raises_done _ _ _
      | error fault => exact .of_fault (Peripheral.raises_of_resolve hresolve) _
  | idle | opcode | addressHigh | addressLow => exact Step.raises_done _ _ _

/-- Serving an observation may do either: starve where a phase is entered, or fail in the transport
where the register is written or the clock is pulsed. -/
theorem raises_exchange (phase : Phase) (transition : Transition) (byte : UInt8) (rig : Rig σ) :
    (rig.exchange link phase transition byte).Raises Rig.bus := by
  obtain ⟨host, device, bus⟩ := rig
  simp only [Rig.exchange]
  cases transition with
  | held => exact raises_pulse link phase _
  | entered =>
      refine .andThen (.andThen (raises_enter phase byte _) ?_) ?_
      · intro _
        exact raises_sendInputs link _
      · intro _
        exact raises_pulse link phase _

/-- A poll may starve, break the protocol, or fail in the transport. These are the three ways in
which a run that was set up can fault at all, timeouts and grades apart. -/
theorem raises_poll (rig : Rig σ) : (rig.poll link).Raises Rig.bus := by
  obtain ⟨host, device, bus⟩ := rig
  rw [Rig.poll]
  -- The register cannot be read, or shows a halt, or a violation, or a phase to be served.
  split
  · refine .of_fault ?_ _
    exact trivial
  · simp only
    split
    · exact Step.raises_done _ _ _
    · split
      · refine .of_fault ?_ _
        exact trivial
      · exact raises_exchange link _ _ _ _

/-- So may a poll whose finding is not looked at. -/
theorem raises_polled (rig : Rig σ) : (rig.polled link).Raises Rig.bus := by
  have hpoll := raises_poll link rig
  obtain ⟨result, next, notes, hstep⟩ :
      ∃ result next notes, rig.poll link = ⟨result, next, notes⟩ := ⟨_, _, _, rfl⟩
  rw [hstep] at hpoll
  rw [Rig.polled, hstep]
  cases result with
  | ok found => exact Step.raises_done _ _ _
  | error fault => exact .of_fault (hpoll fault rfl) _

/-- Reset and enabling may fail in the transport. -/
theorem raises_start (config : Config) (bus : Peripheral) (device : σ) :
    (link.start config bus device).Raises Rig.bus := by
  rw [Link.start, Link.powerUp]
  -- Reset goes up and down before there is a rig, and its stores are the given ones.
  refine .andThen (.within (.andThen (raises_call (fun _ => bus) _ _) ?_)) ?_
  · intro _
    exact raises_call (fun _ => bus) _ _
  · intro _
    simp only [Rig.enable]
    exact raises_sendInputs link _

end Serial

/-! ### Endings -/

/-- The state in which a run ends:

- `stop`: what ended it;
- `device`: the device;
- `stores`: the stores. Behind separate pins they hold the program of the run and no data;
- `time`: full cycles, or clock pulses on the serial link;
- `commits`: transactions, as the host of the serial link counts them. The other drivers count
  none. -/
structure Ending (σ : Type) where
  stop : Stop
  device : σ
  stores : Peripheral
  time : Nat
  commits : Nat

/-- What was counted up to an ending. -/
def Ending.counters {σ : Type} (ending : Ending σ) : Counters :=
  ⟨ending.time, ending.commits, ending.stores.tally⟩

/-- A run of `case` gives what its ending says:

- `device`: it leaves the device of the ending;
- `verdict`: a fault that ended it is given as it came up on the way, and never a fault of another
  kind. A run that was out of budget times out behind the time of the ending. A run that halted is
  graded on the output and the counts of the ending, byte for byte and in length; if it halted
  before any time passed, the device did not run. -/
structure Ending.Closes {σ : Type} (ending : Ending σ) (case : Case) (run : Run σ) : Prop where
  device : run.device = ending.device
  verdict : match ending.stop with
    | .faulted fault => run.verdict = .error fault ∧ ending.stores.Raises fault
    | .exhausted => run.verdict = .error (.timeout ending.time)
    | .halted =>
      run.verdict
        = if ending.time = 0 then
            .error .zeroCycle
          else if ending.stores.channel.output = case.expected then
            .ok ⟨ending.time, ending.stores.channel.output, ending.stores.tally⟩
          else
            .error (.outputMismatch case.expected ending.stores.channel.output)

/-! ### Clocked runs -/

/-- The loop takes no notice of its journal: with every other one it stops in the same state and for
the same reason. -/
theorem cyclesUntilHalted_of_journal {S : Type} {halted : S → Bool} {cycle : S → Step S Unit}
    {budget : Nat} {start last : S} {stop : Stop} {journal after : Journal}
    (h : cyclesUntilHalted halted cycle budget start journal = (stop, last, after))
    (other : Journal) :
    ∃ kept, cyclesUntilHalted halted cycle budget start other = (stop, last, kept) := by
  -- Induction along the loop. A cycle that does not fault is recorded in both journals.
  fun_induction cyclesUntilHalted halted cycle budget start journal generalizing other with
  | case1 state journal hstate =>
      cases h
      exact ⟨other, cyclesUntilHalted_halted hstate 0 other⟩
  | case2 state journal hstate =>
      cases h
      exact ⟨other, cyclesUntilHalted_zero (Bool.eq_false_iff.mpr hstate) other⟩
  | case3 budget state journal hstate =>
      cases h
      exact ⟨other, cyclesUntilHalted_halted hstate _ other⟩
  | case4 budget state journal hstate next notes htaken ih =>
      rw [cyclesUntilHalted_succ (Bool.eq_false_iff.mpr hstate) htaken]
      exact ih h (other.record notes)
  | case5 budget state journal hstate fault stuck notes htaken =>
      cases h
      exact ⟨_, cyclesUntilHalted_faulted (Bool.eq_false_iff.mpr hstate) htaken budget.succ_pos
        other⟩

namespace Clocking

variable {σ S : Type} {clocking : Clocking σ S}

/-- The counters of a clocked encoding. -/
def counters (clocking : Clocking σ S) (state : S) : Counters where
  time := clocking.cycles state
  tally := clocking.tally state

/-- The ending of a clocked run, whose states have stores. -/
def ending (clocking : Clocking σ S) (stores : S → Peripheral) (budget : Nat) (start : S) :
    Ending σ :=
  match cyclesUntilHalted clocking.halted clocking.cycle budget start .silent with
  | (stop, last, _) =>
    ⟨stop, clocking.device last, stores last, clocking.cycles last, 0⟩

variable {budget : Nat} {start last : S} {stop : Stop} {journal after : Journal}

/-- The ending of a clocked run is where its loop stops. -/
theorem ending_of_loop (stores : S → Peripheral)
    (h : cyclesUntilHalted clocking.halted clocking.cycle budget start journal
      = (stop, last, after)) :
    clocking.ending stores budget start
      = ⟨stop, clocking.device last, stores last, clocking.cycles last, 0⟩ := by
  obtain ⟨kept, hsilent⟩ := cyclesUntilHalted_of_journal h .silent
  rw [ending, hsilent]

/-- The ending of a clocked run decides what the run gives, if the faults of its cycles are such as
come up on the way. -/
theorem closes {stores : S → Peripheral} (hcounts : clocking.Counts)
    (houtput : ∀ state, clocking.output state = (stores state).channel.output)
    (htally : ∀ state, clocking.tally state = (stores state).tally)
    (hraises : ∀ state, (clocking.cycle state).Raises stores)
    (hzero : clocking.cycles start = 0) (case : Case) (budget : Nat) (journal : Journal) :
    (clocking.ending stores budget start).Closes case (clocking.run case budget start journal) := by
  obtain ⟨n, last, notes, -, hcycled, hend⟩ :=
    cyclesUntilHalted_cases clocking.halted clocking.cycle budget start journal
  have htime : clocking.cycles last = n := by
    rw [cycles_of_cycled hcounts hcycled, hzero, Nat.zero_add]
  rw [run]
  by_cases hstart : clocking.halted start = true
  · -- The loop would stop at once, with no time passed. The run does not even take it.
    rw [if_pos hstart, ending_of_loop stores (cyclesUntilHalted_halted hstart budget journal)]
    exact ⟨rfl, (if_pos hzero).symm⟩
  · rw [if_neg hstart]
    rcases hend with ⟨hlast, hloop⟩ | ⟨-, -, hloop⟩ | ⟨-, -, fault, stuck, more, hfault, hloop⟩
    · -- Time has passed, as the loop has taken the run away from a state that is not halted.
      have hpositive : clocking.cycles last ≠ 0 := by
        intro hlength
        obtain rfl : n = 0 := htime.symm.trans hlength
        cases hcycled
        exact hstart hlast
      rw [ending_of_loop stores hloop, hloop]
      refine ⟨rfl, ?_⟩
      simp only [if_neg hpositive, Case.conclude, Case.grade, houtput, htally]
    · rw [ending_of_loop stores hloop, hloop]
      exact ⟨rfl, rfl⟩
    · have hstuck := hraises last fault (congrArg Step.result hfault)
      rw [hfault] at hstuck
      rw [ending_of_loop stores hloop, hloop]
      exact ⟨rfl, rfl, hstuck⟩

end Clocking

/-- The ending of a run over the addressed bus decides what it gives. -/
theorem Addressed.closes {σ : Type} (pins : Addressed.Device σ) {config : Config} {case : Case}
    {bus : Peripheral} (hstores : case.stores config = .ok bus) (device : σ) (journal : Journal) :
    (pins.clocking.ending Rig.bus config.cycleBudget.toNat
      (pins.ready config bus device)).Closes case (pins.run config case device journal) := by
  obtain ⟨opening, -, hrun⟩ := pins.run_eq hstores device journal
  rw [hrun]
  exact Clocking.closes (clocking_counts pins) (fun _ => rfl) (fun _ => rfl) (raises_cycle pins)
    rfl case _ _

/-- The ending of a run over separate pins decides what it gives. -/
theorem SeparatePin.closes {σ : Type} (pins : SeparatePin.Device σ) {config : Config} {case : Case}
    {program : Rom} (hload : Rom.load case.program = .ok program) (device : σ)
    (journal : Journal) :
    (pins.clocking.ending (Rig.stores program) config.cycleBudget.toNat
      (pins.ready config case program device)).Closes case
        (pins.run config case device journal) := by
  obtain ⟨opening, -, hrun⟩ := pins.run_eq hload device journal
  rw [hrun]
  exact Clocking.closes (clocking_counts pins) (fun _ => rfl) (fun _ => rfl)
    (raises_cycle program pins) rfl case _ _

/-! ### Runs over the serial link -/

namespace Serial

variable {σ : Type} {link : Link σ}

/-- The counters of the serial link. -/
def Rig.counters (rig : Rig σ) : Counters :=
  ⟨rig.host.steps, rig.host.commits, rig.bus.tally⟩

/-- The ending of a run over the serial link that stops with this rig. -/
def Rig.ending (rig : Rig σ) (stop : Stop) : Ending σ :=
  ⟨stop, rig.device, rig.bus, rig.host.steps, rig.host.commits⟩

/-- The ending of a run over the serial link. A device that cannot be reset and enabled is not
polled. -/
def Link.ending (link : Link σ) (config : Config) (bus : Peripheral) (device : σ) : Ending σ :=
  match link.start config bus device with
  | ⟨.error fault, rig, _⟩ => rig.ending (.faulted fault)
  | ⟨.ok (), rig, _⟩ =>
    match link.pollsUntilHalted (config.cycleBudget.toNat - 1) rig .silent with
    | (stop, last, _) => last.ending stop

/-- The loop that polls takes no notice of its journal either. So the ending of a run can be stated
over a silent journal, whatever the run itself has kept. -/
theorem pollsUntilHalted_of_journal {spare : Nat} {rig last : Rig σ} {stop : Stop}
    {journal after : Journal}
    (h : link.pollsUntilHalted spare rig journal = (stop, last, after)) (other : Journal) :
    ∃ kept, link.pollsUntilHalted spare rig other = (stop, last, kept) := by
  -- Induction along the loop, as for the clocked one. Only a poll that finds the device running
  -- with budget to spare leads on.
  fun_induction Link.pollsUntilHalted link spare rig journal generalizing other with
  | case1 spare rig journal fault stuck notes hpoll =>
      cases h
      exact ⟨_, pollsUntilHalted_faulted hpoll spare other⟩
  | case2 spare rig journal stuck notes hpoll =>
      cases h
      exact ⟨_, pollsUntilHalted_halted hpoll spare other⟩
  | case3 rig journal phase next notes hpoll =>
      cases h
      exact ⟨_, by rw [Link.pollsUntilHalted, hpoll]⟩
  | case4 rig journal phase next notes hpoll spare ih =>
      rw [Link.pollsUntilHalted, hpoll]
      exact ih h (other.record notes)

variable {config : Config} {bus : Peripheral} {device : σ} {rig last : Rig σ}
  {opening : List Note} {stop : Stop}

/-- A run over the serial link whose device cannot be reset and enabled ends there. -/
theorem ending_of_fault {fault : Fault}
    (hstart : link.start config bus device = ⟨.error fault, rig, opening⟩) :
    link.ending config bus device = rig.ending (.faulted fault) := by
  rw [Link.ending, hstart]

/-- Every other one ends where its loop stops. -/
theorem ending_of_loop (hstart : link.start config bus device = ⟨.ok (), rig, opening⟩)
    {journal after : Journal}
    (h : link.pollsUntilHalted (config.cycleBudget.toNat - 1) rig journal = (stop, last, after)) :
    link.ending config bus device = last.ending stop := by
  obtain ⟨kept, hsilent⟩ := pollsUntilHalted_of_journal h .silent
  simp only [Link.ending, hstart, hsilent]

/-- Every run is a sequence of polls behind which the device is found halted, the budget is used up,
or one more poll faults, and it ends there. A device that is found halted at once did not run. -/
theorem run_cases {case : Case} (hstores : case.stores config = .ok bus)
    (hstart : link.start config bus device = ⟨.ok (), rig, opening⟩) (journal : Journal) :
    ∃ n last notes, Polls link n rig notes last
      ∧ ((last.stopped link = true ∧ last.host.steps = 0
          ∧ link.ending config bus device
            = Rig.ending ⟨last.host, (link.getOutputs last.device).2, last.bus⟩ .halted
          ∧ link.run config case device journal
            = ⟨.error .zeroCycle, (link.getOutputs last.device).2,
                ((journal.record [.message (.runStarted case.name .serial)]).record
                  opening).record notes⟩)
        ∨ (last.stopped link = true ∧ last.host.steps ≠ 0
          ∧ link.ending config bus device
            = Rig.ending ⟨last.host, (link.getOutputs last.device).2, last.bus⟩ .halted
          ∧ link.run config case device journal
            = case.conclude last.host.steps last.bus.channel.output last.bus.tally
                (link.getOutputs last.device).2
                (((journal.record [.message (.runStarted case.name .serial)]).record
                  opening).record notes))
        ∨ (link.ending config bus device = last.ending .exhausted
          ∧ link.run config case device journal
            = ⟨.error (.timeout last.host.steps), last.device,
                ((journal.record [.message (.runStarted case.name .serial)]).record
                  opening).record notes⟩)
        ∨ (last.stopped link = false ∧ ∃ fault stuck more,
          last.polled link = ⟨.error fault, stuck, more⟩
          ∧ link.ending config bus device = stuck.ending (.faulted fault)
          ∧ link.run config case device journal
            = ⟨.error fault, stuck.device,
                ((journal.record [.message (.runStarted case.name .serial)]).record
                  opening).record (notes ++ more)⟩)) := by
  obtain ⟨n, last, notes, hpolls, hend⟩ := pollsUntilHalted_cases link
    (config.cycleBudget.toNat - 1) rig
    ((journal.record [.message (.runStarted case.name .serial)]).record opening)
  refine ⟨n, last, notes, hpolls, ?_⟩
  rw [Link.run, hstores]
  simp only [hstart]
  rcases hend with ⟨-, stuck, more, hpoll, hloop⟩ | ⟨-, hloop⟩
    | ⟨-, fault, stuck, more, hpoll, hloop⟩
  · -- The poll that finds the device halted has read the output register and done nothing else.
    have hending := ending_of_loop hstart hloop
    obtain ⟨rfl, rfl⟩ := Rig.poll_of_found_halted hpoll
    have hstopped := stopped_iff.mpr hpoll
    rw [List.append_nil] at hloop
    rw [hloop]
    by_cases hzero : last.host.steps = 0
    · exact .inl ⟨hstopped, hzero, hending, if_pos hzero⟩
    · exact .inr (.inl ⟨hstopped, hzero, hending, if_neg hzero⟩)
  · have hending := ending_of_loop hstart hloop
    rw [hloop]
    exact .inr (.inr (.inl ⟨hending, rfl⟩))
  · have hending := ending_of_loop hstart hloop
    rw [hloop]
    exact .inr (.inr (.inr ⟨stopped_of_error hpoll, fault, stuck, more, polled_of_error hpoll,
      hending, rfl⟩))

/-- The ending of a run over the serial link decides what it gives. A link that cannot be started
ends the run with its error, before the first poll. -/
theorem closes (link : Link σ) {config : Config} {case : Case} {bus : Peripheral}
    (hstores : case.stores config = .ok bus) (device : σ) (journal : Journal) :
    (link.ending config bus device).Closes case (link.run config case device journal) := by
  obtain ⟨result, rig, opening, hstart⟩ : ∃ result rig opening,
      link.start config bus device = ⟨result, rig, opening⟩ := ⟨_, _, _, rfl⟩
  cases result with
  | error fault =>
      have hraises := raises_start link config bus device fault (congrArg Step.result hstart)
      rw [hstart] at hraises
      rw [Link.run, hstores, ending_of_fault hstart]
      simp only [hstart]
      exact ⟨rfl, rfl, hraises⟩
  | ok value =>
      obtain ⟨n, last, notes, -, hend⟩ := run_cases hstores hstart journal
      rcases hend with ⟨-, hzero, hending, hrun⟩ | ⟨-, hpulsed, hending, hrun⟩
        | ⟨hending, hrun⟩ | ⟨-, fault, stuck, more, hpolled, hending, hrun⟩
      · rw [hending, hrun]
        exact ⟨rfl, (if_pos hzero).symm⟩
      · rw [hending, hrun]
        exact ⟨rfl, (if_neg hpulsed).symm⟩
      · rw [hending, hrun]
        exact ⟨rfl, rfl⟩
      · have hraises := raises_polled link last fault (congrArg Step.result hpolled)
        rw [hpolled] at hraises
        rw [hending, hrun]
        exact ⟨rfl, rfl, hraises⟩

end Serial

/-! ### Every connection -/

namespace Connection

variable {σ : Type}

/-- The stores in front of which a run begins. Behind separate pins there is no data image. -/
def freshStores (connection : Connection σ) (config : Config) (case : Case) :
    Except Fault Peripheral :=
  match connection with
  | addressed _ | serial _ => case.stores config
  | separatePin _ =>
    match Rom.load case.program with
    | .error fault => .error fault
    | .ok program =>
      .ok ⟨program, .zero, .ofInput case.input (case.policy config .separatePin), {}⟩

/-- Behind separate pins the stores are those of a program that fits, in front of the input. -/
theorem exists_load_of_freshStores {pins : SeparatePin.Device σ} {config : Config} {case : Case}
    {bus : Peripheral} (h : (separatePin pins).freshStores config case = .ok bus) :
    ∃ program, Rom.load case.program = .ok program
      ∧ bus = ⟨program, .zero, .ofInput case.input (case.policy config .separatePin), {}⟩ := by
  cases hload : Rom.load case.program with
  | error fault =>
      simp only [freshStores, hload] at h
      cases h
  | ok program =>
      simp only [freshStores, hload] at h
      cases h
      exact ⟨program, rfl, rfl⟩

/-- The ending of a run that begins in front of the stores `bus`. -/
def ending (connection : Connection σ) (config : Config) (case : Case) (device : σ)
    (bus : Peripheral) : Ending σ :=
  match connection with
  | addressed pins =>
    pins.clocking.ending Addressed.Rig.bus config.cycleBudget.toNat (pins.ready config bus device)
  | separatePin pins =>
    pins.clocking.ending (SeparatePin.Rig.stores bus.program) config.cycleBudget.toNat
      (pins.ready config case bus.program device)
  | serial link => link.ending config bus device

/-- The ending of every run decides what the run gives, whatever the journal keeps. It is stated for
the run of the connection, so that the trace and the counters of a run can be tied to its verdict
without a look into the driver. -/
theorem closes {connection : Connection σ} {config : Config} {case : Case} {bus : Peripheral}
    (hstores : connection.freshStores config case = .ok bus) (device : σ) (journal : Journal) :
    (connection.ending config case device bus).Closes case
      (connection.run config case device journal) := by
  cases connection with
  | addressed pins => exact Addressed.closes pins hstores device journal
  | separatePin pins =>
      obtain ⟨program, hload, rfl⟩ := exists_load_of_freshStores hstores
      exact SeparatePin.closes pins hload device journal
  | serial link => exact Serial.closes link hstores device journal

end Connection

end TapeBench
