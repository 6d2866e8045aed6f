import TapeBench.Addressed.Machine
import TapeBench.Addressed.Run
import TapeBench.Proofs.Cycles

/-!
# `TapeBench.Proofs.Addressed.Latency`: machines without their pins

Between two cycles of the addressed bus a synchronous machine is described by its state, the value
that is still on its input, and the stores behind the bus. In one cycle it takes an edge with that
value, and then the request that it showed before the edge is served. So the value of a read
reaches the machine one cycle after the request.

* `Latched`: a machine between two cycles.
* `Machine.turn`: one cycle without clock, pins and driver.
* `Machine.run`: a run made of such cycles.
* `Machine.cycle_rig`: a cycle of the driver on the machine behind pins is a turn.
* `Machine.run_pins`: the machine behind pins, in whatever state it was left, gives the verdict and
  the notes of the run without pins.
* `Machine.verdict_of_halted`, `Machine.verdict_of_faulted`, `Machine.verdict_of_lt`: the verdict,
  from a sequence of turns and what comes behind it.
* `Machine.run_cases`: every run is such a sequence.
-/

set_option autoImplicit false

namespace TapeBench.Addressed

open Bus (Op Request)

variable {μ : Type}

/-- A machine between two cycles:

- `core`: state of the machine;
- `valIn`: the value on its input;
- `bus`: the environment;
- `cycles`: full cycles so far. -/
structure Latched (μ : Type) where
  core : μ
  valIn : UInt8 := 0
  bus : Peripheral
  cycles : Nat := 0

namespace Latched

/-- The rig between two cycles: the clock is low, and the chip is enabled and not in reset. -/
def rig (state : Latched μ) (settleNs : UInt32) : Rig (Chip μ) :=
  ⟨⟨.low, settleNs, state.cycles⟩,
    { core := state.core, enable := true, valIn := state.valIn, edges := state.cycles },
    state.bus⟩

/-- The rig behind a cycle that faulted: the chip has taken its edge, the clock went low without
time to settle, and the request is pending. -/
def stuck (state : Latched μ) (settleNs : UInt32) (request : Request) : Rig (Chip μ) :=
  ⟨⟨.high request, settleNs, state.cycles⟩,
    { core := state.core, lastClock := true, enable := true, valIn := state.valIn,
      edges := state.cycles + 1 },
    state.bus⟩

end Latched

namespace Machine

/-- The request that a state of the machine shows. -/
def request (machine : Machine μ) (core : μ) : Request :=
  ⟨.ofCode (machine.busOp core), machine.addr core, machine.valOut core⟩

/-- One cycle: the machine takes an edge with the value on its input, and then the request from
before the edge is served. Only reads change the value on the input. -/
def turn (machine : Machine μ) (state : Latched μ) : Step (Latched μ) Unit :=
  match state with
  | ⟨core, valIn, bus, cycles⟩ =>
    let request := machine.request core
    let logged := (machine.edgeMessages valIn core).map Note.message
    -- The edge takes the value from before, and the request is the one from before the edge.
    let core := machine.edge valIn core
    if request.op = .noOp then
      ⟨.ok (), ⟨core, valIn, bus, cycles + 1⟩, logged⟩
    else
      let fellBack := request.op = .readIo && bus.channel.fallsBack
      match bus.resolve request with
      | ⟨.error fault, bus, notes⟩ => ⟨.error fault, ⟨core, valIn, bus, cycles⟩, logged ++ notes⟩
      | ⟨.ok value, bus, notes⟩ =>
        let valIn := if request.op.isRead then value else valIn
        ⟨.ok (), ⟨core, valIn, bus, cycles + 1⟩,
          logged ++ (notes ++ servedEvents cycles request value fellBack)⟩

/-- The machine of a state has stopped. -/
def stopped (machine : Machine μ) (state : Latched μ) : Bool :=
  machine.halted state.core

/-- A run of the machine from its first state, without pins. It is `Device.run` with the reset left
out and a turn of the machine in the place of a cycle of the driver. -/
def run (machine : Machine μ) (config : Config) (case : Case) (journal : Journal) :
    TapeBench.Run μ :=
  let journal := journal.record [.message (.runStarted case.name .addressed)]
  match case.stores config with
  | .error fault => ⟨.error fault, machine.start, journal⟩
  | .ok bus =>
    if machine.halted machine.start then
      ⟨.error .zeroCycle, machine.start, journal⟩
    else
      match cyclesUntilHalted machine.stopped machine.turn config.cycleBudget.toNat
          { core := machine.start, bus } journal with
      | (.faulted fault, state, journal) => ⟨.error fault, state.core, journal⟩
      | (.exhausted, state, journal) => ⟨.error (.timeout state.cycles), state.core, journal⟩
      | (.halted, state, journal) =>
        case.conclude state.cycles state.bus.channel.output state.bus.tally state.core journal

/-! ### One turn, by what becomes of the request -/

/-- Nothing is asked for: the machine takes its edge, and the stores stay as they are. -/
theorem turn_idle {machine : Machine μ} {state : Latched μ}
    (idle : (machine.request state.core).op = .noOp) :
    machine.turn state
      = ⟨.ok (), ⟨machine.edge state.valIn state.core, state.valIn, state.bus, state.cycles + 1⟩,
          (machine.edgeMessages state.valIn state.core).map Note.message⟩ := by
  obtain ⟨core, valIn, bus, cycles⟩ := state
  simp only [turn]
  exact if_pos idle

/-- The request is served: a read leaves its value on the input, for the edge of the next turn.
Anything else leaves the input as it was, so a value may stay there for many turns. -/
theorem turn_served {machine : Machine μ} {state : Latched μ}
    (asks : (machine.request state.core).op ≠ .noOp) {next : Peripheral} {value : UInt8}
    {notes : List Note}
    (served : state.bus.resolve (machine.request state.core) = ⟨.ok value, next, notes⟩) :
    machine.turn state
      = ⟨.ok (),
          ⟨machine.edge state.valIn state.core,
            if (machine.request state.core).op.isRead then value else state.valIn, next,
            state.cycles + 1⟩,
          (machine.edgeMessages state.valIn state.core).map Note.message
            ++ (notes ++ servedEvents state.cycles (machine.request state.core) value
              ((machine.request state.core).op = .readIo && state.bus.channel.fallsBack))⟩ := by
  obtain ⟨core, valIn, bus, cycles⟩ := state
  simp only [turn, if_neg asks, served]

/-- The request cannot be served: the machine has taken its edge, and the cycle does not count. -/
theorem turn_faulted {machine : Machine μ} {state : Latched μ}
    (asks : (machine.request state.core).op ≠ .noOp) {next : Peripheral} {fault : Fault}
    {notes : List Note}
    (failed : state.bus.resolve (machine.request state.core) = ⟨.error fault, next, notes⟩) :
    machine.turn state
      = ⟨.error fault,
          ⟨machine.edge state.valIn state.core, state.valIn, next, state.cycles⟩,
          (machine.edgeMessages state.valIn state.core).map Note.message ++ notes⟩ := by
  obtain ⟨core, valIn, bus, cycles⟩ := state
  simp only [turn, if_neg asks, failed]

/-! ### Pins add nothing -/

/-- The reset sequence brings the chip to the rig of the first state, from whatever state it was
in, and nothing is logged on the way. -/
theorem powerUp_pins (machine : Machine μ) (windowNs : UInt32) (chip : Chip μ) :
    machine.pins.powerUp windowNs (machine.pins.setValIn 0 chip)
      = ({ core := machine.start, enable := true }, []) := by
  obtain ⟨core, clock, lastClock, reset, enable, valIn, edges⟩ := chip
  simp [pins, ClockedDevice.powerUp, ClockedDevice.settle, hold, holdMessages, Chip.rising]

/-- The rising half of a cycle samples the request and lets the machine take its edge. -/
theorem advance_rig (machine : Machine μ) (settleNs : UInt32) (state : Latched μ) :
    (state.rig settleNs).advance machine.pins
      = ⟨.ok (.high (machine.request state.core)),
          ⟨⟨.high (machine.request state.core), settleNs, state.cycles⟩,
            { core := machine.edge state.valIn state.core, clock := true, lastClock := true,
              enable := true, valIn := state.valIn, edges := state.cycles + 1 },
            state.bus⟩,
          (machine.edgeMessages state.valIn state.core).map Note.message⟩ := by
  obtain ⟨core, valIn, bus, cycles⟩ := state
  rfl

/-- One cycle of the driver on the machine behind pins is a turn, with the same notes. A turn that
faults leaves the rig stuck, with the clock of the device low and the request pending in the driver.
-/
theorem cycle_rig (machine : Machine μ) (settleNs : UInt32) (state : Latched μ) :
    (state.rig settleNs).cycle machine.pins
      = match machine.turn state with
        | ⟨.ok (), next, notes⟩ => ⟨.ok (), next.rig settleNs, notes⟩
        | ⟨.error fault, next, notes⟩ =>
          ⟨.error fault, next.stuck settleNs (machine.request state.core), notes⟩ := by
  rw [Rig.cycle, advance_rig]
  obtain ⟨core, valIn, bus, cycles⟩ := state
  simp only [Step.andThen, Rig.advance, Rig.fall, commit, turn]
  by_cases hop : (machine.request core).op = .noOp
  · -- Nothing is asked for, so the falling half only settles.
    simp only [hop, if_true]
    simp [Step.done, pins, ClockedDevice.settle, hold, holdMessages, Chip.rising, Latched.rig]
  · -- The falling half serves the request, or faults before it settles.
    simp only [if_neg hop]
    obtain ⟨result, served, notes⟩ := bus.resolve (machine.request core)
    cases result with
    | error fault => simp [Latched.stuck, pins]
    | ok value =>
        cases hread : (machine.request core).op.isRead <;>
          simp [Step.done, pins, ClockedDevice.settle, hold, holdMessages, Chip.rising,
            Latched.rig]

/-- The cycles of the driver on the machine behind pins go in lockstep with the turns. The rig is
that of the state, so every fact about the turns is one about the driver. -/
theorem lockstep_rig (machine : Machine μ) (settleNs : UInt32) :
    Lockstep machine.stopped machine.turn
      (fun rig => machine.pins.halted rig.device) (Rig.cycle machine.pins) some some
      (fun state rig => rig = state.rig settleNs) where
  halted := by
    intro state rig h
    rw [h]
    rfl
  cycle := by
    intro state rig h _
    have hcycle := machine.cycle_rig settleNs state
    obtain ⟨result, next, notes, hturn⟩ :
        ∃ result next notes, machine.turn state = ⟨result, next, notes⟩ := ⟨_, _, _, rfl⟩
    rw [hturn] at hcycle
    cases result with
    | ok value => exact ⟨_, _, _, _, _, hturn, h ▸ hcycle, rfl, fun _ => rfl⟩
    | error fault => exact ⟨_, _, _, _, _, hturn, h ▸ hcycle, rfl, fun hok => by cases hok⟩

/-- The machine behind pins runs as the machine without them, whatever state it was left in: the
verdict is the same, and so are the notes. -/
theorem run_pins (machine : Machine μ) (config : Config) (case : Case) (chip : Chip μ)
    (journal : Journal) :
    (machine.pins.run config case chip journal).verdict
        = (machine.run config case journal).verdict
      ∧ (machine.pins.run config case chip journal).journal
        = (machine.run config case journal).journal := by
  unfold Device.run run
  cases case.stores config with
  | error fault => exact ⟨rfl, rfl⟩
  | ok bus =>
      have hpower : machine.pins.halted { core := machine.start, enable := true }
          = machine.halted machine.start := rfl
      simp only [powerUp_pins, Journal.record_nil, hpower]
      by_cases hstart : machine.halted machine.start = true
      · rw [if_pos hstart, if_pos hstart]
        exact ⟨rfl, rfl⟩
      · rw [if_neg hstart, if_neg hstart]
        -- From here on both loops go in lockstep, and their notes are the same.
        obtain ⟨stop, state, rig, notes, notes', hturns, hcycles, hnotes, hrig⟩ :=
          (machine.lockstep_rig config.settleNs).run config.cycleBudget.toNat
            (s := { core := machine.start, bus }) rfl
            (journal.record [.message (.runStarted case.name .addressed)])
            (journal.record [.message (.runStarted case.name .addressed)])
        rw [List.filterMap_some, List.filterMap_some] at hnotes
        subst hnotes
        simp only [Latched.rig] at hcycles
        rw [hturns, hcycles]
        cases stop with
        | faulted fault => exact ⟨rfl, rfl⟩
        | exhausted =>
            obtain rfl := hrig (by simp)
            exact ⟨rfl, rfl⟩
        | halted =>
            obtain rfl := hrig (by simp)
            exact ⟨rfl, rfl⟩

/-! ### Verdicts, from sequences of turns -/

/-- A fault-free turn counts one cycle. -/
theorem cycles_turn {machine : Machine μ} {state next : Latched μ} {notes : List Note}
    (h : machine.turn state = ⟨.ok (), next, notes⟩) : next.cycles = state.cycles + 1 := by
  obtain ⟨core, valIn, bus, cycles⟩ := state
  simp only [turn] at h
  split at h
  · cases h
    rfl
  · split at h
    · cases h
    · cases h
      rfl

/-- A sequence of turns counts its length. -/
theorem cycles_cycled {machine : Machine μ} {n : Nat} {state last : Latched μ} {notes : List Note}
    (h : Cycled machine.stopped machine.turn n state notes last) :
    last.cycles = state.cycles + n := by
  induction h with
  | refl => rfl
  | cons _ taken _ ih => rw [ih, cycles_turn taken]; omega

section Verdicts

variable {machine : Machine μ} {config : Config} {case : Case} {bus : Peripheral} {n : Nat}
  {last : Latched μ} {notes : List Note}

/-- A run that is still going when its budget is used up times out, at exactly the budget. The
cycles of `h` go beyond it, so none of those within can have halted or faulted. -/
theorem verdict_of_lt (hstores : case.stores config = .ok bus)
    (hstart : machine.halted machine.start = false)
    (h : Cycled machine.stopped machine.turn n { core := machine.start, bus } notes last)
    (hn : config.cycleBudget.toNat < n) (journal : Journal) :
    (machine.run config case journal).verdict = .error (.timeout config.cycleBudget.toNat) := by
  obtain ⟨middle, front, hfront, hrun⟩ := cyclesUntilHalted_of_lt h hn
    (journal.record [.message (.runStarted case.name .addressed)])
  have hcycles : middle.cycles = config.cycleBudget.toNat := by
    rw [cycles_cycled hfront, Nat.zero_add]
  rw [run, hstores]
  simp only [hstart, Bool.false_eq_true, if_false, hrun, hcycles]

/-- A run that halts after `n` cycles is graded if the budget allows `n` cycles. A budget of exactly
`n` is enough, as the halt is looked for before the budget is. -/
theorem verdict_of_halted (hstores : case.stores config = .ok bus)
    (hstart : machine.halted machine.start = false)
    (h : Cycled machine.stopped machine.turn n { core := machine.start, bus } notes last)
    (hlast : machine.stopped last = true) (journal : Journal) :
    (machine.run config case journal).verdict
      = if n ≤ config.cycleBudget.toNat then
          case.grade n last.bus.channel.output last.bus.tally
        else
          .error (.timeout config.cycleBudget.toNat) := by
  split
  · rename_i hn
    -- The clock began at zero and each turn counts one, so the report says `n`.
    have hcycles : last.cycles = n := by rw [cycles_cycled h, Nat.zero_add]
    rw [run, hstores]
    simp only [hstart, Bool.false_eq_true, if_false, cyclesUntilHalted_of_cycled h hn,
      cyclesUntilHalted_halted hlast, hcycles]
    rfl
  · rename_i hn
    exact verdict_of_lt hstores hstart h (by omega) journal

/-- A run whose cycle behind `n` others faults ends with that fault if the budget allows the cycle.
A budget of exactly `n` is not enough: the run times out in front of it. -/
theorem verdict_of_faulted (hstores : case.stores config = .ok bus)
    (hstart : machine.halted machine.start = false)
    (h : Cycled machine.stopped machine.turn n { core := machine.start, bus } notes last)
    (hlast : machine.stopped last = false) {fault : Fault} {stuck : Latched μ}
    {more : List Note} (hfault : machine.turn last = ⟨.error fault, stuck, more⟩)
    (journal : Journal) :
    (machine.run config case journal).verdict
      = if n < config.cycleBudget.toNat then .error fault
        else .error (.timeout config.cycleBudget.toNat) := by
  have hcycles : last.cycles = n := by rw [cycles_cycled h, Nat.zero_add]
  split
  · rename_i hn
    rw [run, hstores]
    simp only [hstart, Bool.false_eq_true, if_false,
      cyclesUntilHalted_of_cycled h (Nat.le_of_lt hn),
      cyclesUntilHalted_faulted hlast hfault (Nat.sub_pos_of_lt hn)]
  · rename_i hn
    -- The budget ends among the fault-free cycles, or right behind the last of them.
    rcases Nat.lt_or_eq_of_le (Nat.not_lt.mp hn) with hlt | heq
    · exact verdict_of_lt hstores hstart h hlt journal
    · rw [run, hstores]
      simp only [hstart, Bool.false_eq_true, if_false, heq,
        cyclesUntilHalted_of_cycled h (Nat.le_refl n), Nat.sub_self,
        cyclesUntilHalted_zero hlast, hcycles]

/-- Every run is a sequence of turns, behind which the machine has stopped, the budget is used up,
or one more turn faults. -/
theorem run_cases (hstores : case.stores config = .ok bus)
    (hstart : machine.halted machine.start = false) (journal : Journal) :
    ∃ n last notes, n ≤ config.cycleBudget.toNat
      ∧ Cycled machine.stopped machine.turn n { core := machine.start, bus } notes last
      ∧ ((machine.stopped last = true ∧ machine.run config case journal
            = case.conclude n last.bus.channel.output last.bus.tally last.core
                ((journal.record [.message (.runStarted case.name .addressed)]).record notes))
        ∨ (machine.stopped last = false ∧ machine.run config case journal
            = ⟨.error (.timeout n), last.core,
                (journal.record [.message (.runStarted case.name .addressed)]).record notes⟩)
        ∨ (machine.stopped last = false ∧ n < config.cycleBudget.toNat ∧ ∃ fault stuck more,
            machine.turn last = ⟨.error fault, stuck, more⟩ ∧ machine.run config case journal
              = ⟨.error fault, stuck.core,
                  (journal.record [.message (.runStarted case.name .addressed)]).record
                    (notes ++ more)⟩)) := by
  -- The loop decides how the run ends; what is left is to read its end off.
  obtain ⟨n, last, notes, hn, hturns, hend⟩ := cyclesUntilHalted_cases machine.stopped machine.turn
    config.cycleBudget.toNat { core := machine.start, bus }
    (journal.record [.message (.runStarted case.name .addressed)])
  have hcycles : last.cycles = n := by rw [cycles_cycled hturns, Nat.zero_add]
  refine ⟨n, last, notes, hn, hturns, ?_⟩
  rw [run, hstores]
  simp only [hstart, Bool.false_eq_true, if_false]
  rcases hend with ⟨hlast, hrun⟩ | ⟨hlast, -, hrun⟩ | ⟨hlast, hlt, fault, stuck, more, hfault, hrun⟩
  · exact .inl ⟨hlast, by simp only [hrun, hcycles]⟩
  · exact .inr (.inl ⟨hlast, by simp only [hrun, hcycles]⟩)
  · exact .inr (.inr ⟨hlast, hlt, fault, stuck, more, hfault, by simp only [hrun]⟩)

end Verdicts

end Machine

end TapeBench.Addressed
