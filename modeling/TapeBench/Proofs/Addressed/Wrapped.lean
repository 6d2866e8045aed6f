import TapeBench.Addressed.Cpu
import TapeBench.Proofs.Addressed.Latency
import TapeBench.Recorded

/-!
# `TapeBench.Proofs.Addressed.Wrapped`: a machine in any device that clocks it

A device may hold a synchronous machine and have a state of its own around it. `Wraps` says what the
pins must do for that: a setter changes one level and nothing else, and the machine moves only while
the device is held, back to its first state under reset and one edge further at a rising clock. What
the outputs show depends on the state of the machine alone.

The clock of such a device, its reset sequence and the two halves of its cycles leave no mark on a
run. `Machine.serve` is the run without them, as a recursion on the cycles that are left: a request
is served in the cycle that shows it, and the value of a read is on the input one cycle later.

* `Levels`, `Wraps`: a machine in a device, and `wraps_pins`, `Wraps.recorded` for two such devices.
* `Machine.serve`, `Machine.computed`: the run of a machine, from its states and its input alone.
* `cycle_wrapped`: a cycle of a device that wraps a machine is a turn of the machine.
* `verdict_wrapped`: the verdict on a device that wraps a machine, in whatever state it was left.
-/

set_option autoImplicit false

namespace TapeBench.Addressed

open Bus (Op Request)

variable {μ σ : Type}

/-! ### Machines in devices -/

/-- A machine in a device, and the levels that decide what it does next:

- `core`: state of the machine;
- `clock`: level of the clock line;
- `lastClock`: level of the clock line when the device was held last;
- `reset`: level of the reset line;
- `enable`: level of the enable line;
- `valIn`: level of the value pins. -/
structure Levels (μ : Type) where
  core : μ
  clock : Bool
  lastClock : Bool
  reset : Bool
  enable : Bool
  valIn : UInt8

namespace Levels

/-- Holding a device resets its machine, or lets it take an edge, or leaves it alone. -/
def held (machine : Machine μ) (levels : Levels μ) : Levels μ :=
  { levels with
    core :=
      if levels.reset then machine.start
      else if levels.clock && !levels.lastClock && levels.enable then
        machine.edge levels.valIn levels.core
      else levels.core
    lastClock := levels.clock }

/-- Between two cycles the clock is low, and the device is enabled and not in reset. -/
def resting (core : μ) (valIn : UInt8) : Levels μ :=
  ⟨core, false, false, false, true, valIn⟩

end Levels

/-- The device behind `pins` holds `machine`, and `levels` finds it there:

- `setClock`, `setReset`, `setEnable`, `setValIn`: a setter changes its own level only;
- `hold`: the machine moves while the device is held, and the clock is remembered;
- `halted`, `busOp`, `addr`, `valOut`: the outputs are those of the machine. -/
structure Wraps (machine : Machine μ) (pins : Device σ) (levels : σ → Levels μ) : Prop where
  setClock : ∀ high device,
    levels (pins.setClock high device) = { levels device with clock := high }
  setReset : ∀ high device,
    levels (pins.setReset high device) = { levels device with reset := high }
  setEnable : ∀ high device,
    levels (pins.setEnable high device) = { levels device with enable := high }
  setValIn : ∀ value device,
    levels (pins.setValIn value device) = { levels device with valIn := value }
  hold : ∀ ns device, levels (pins.hold ns device) = (levels device).held machine
  halted : ∀ device, pins.halted device = machine.halted (levels device).core
  busOp : ∀ device, pins.busOp device = machine.busOp (levels device).core
  addr : ∀ device, pins.addr device = machine.addr (levels device).core
  valOut : ∀ device, pins.valOut device = machine.valOut (levels device).core

/-- The levels of a chip. Its count of edges decides nothing. -/
def Chip.levels (chip : Chip μ) : Levels μ :=
  ⟨chip.core, chip.clock, chip.lastClock, chip.reset, chip.enable, chip.valIn⟩

/-- The chip around a machine wraps it, with its own fields for levels. So the reference device is a
case of the general theorem. -/
theorem wraps_pins (machine : Machine μ) : Wraps machine machine.pins Chip.levels where
  setClock _ _ := rfl
  setReset _ _ := rfl
  setEnable _ _ := rfl
  setValIn _ _ := rfl
  hold := by
    intro ns chip
    obtain ⟨core, clock, lastClock, reset, enable, valIn, edges⟩ := chip
    cases clock <;> cases lastClock <;> cases reset <;> cases enable <;> rfl
  halted _ := rfl
  busOp _ := rfl
  addr _ := rfl
  valOut _ := rfl

/-- A device that takes down its calls wraps what it wrapped before, since the levels do not look at
what was taken down. -/
theorem Wraps.recorded {machine : Machine μ} {pins : Device σ} {levels : σ → Levels μ}
    (h : Wraps machine pins levels) :
    Wraps machine pins.recorded fun recorded => levels recorded.device where
  setClock high recorded := h.setClock high recorded.device
  setReset high recorded := h.setReset high recorded.device
  setEnable high recorded := h.setEnable high recorded.device
  setValIn value recorded := h.setValIn value recorded.device
  hold ns recorded := h.hold ns recorded.device
  halted recorded := h.halted recorded.device
  busOp recorded := h.busOp recorded.device
  addr recorded := h.addr recorded.device
  valOut recorded := h.valOut recorded.device

/-! ### Machines on their own -/

namespace Machine

/-- Runs the machine from `core` with `valIn` on its input, for at most `spare` more cycles behind
`taken` ones, and grades what it wrote.

A cycle takes the request that the state shows, lets the machine take its edge, and then serves the
request. Only a read changes the value on the input. -/
def serve (machine : Machine μ) (case : Case) :
    (spare taken : Nat) → (core : μ) → (valIn : UInt8) → Peripheral → Verdict
  | 0, taken, core, _, bus =>
    if machine.halted core then case.grade taken bus.channel.output bus.tally
    else .error (.timeout taken)
  | spare + 1, taken, core, valIn, bus =>
    if machine.halted core then case.grade taken bus.channel.output bus.tally
    else
      let request := machine.request core
      let next := machine.edge valIn core
      if request.op = .noOp then machine.serve case spare (taken + 1) next valIn bus
      else
        match bus.resolve request with
        | ⟨.error fault, _, _⟩ => .error fault
        | ⟨.ok value, bus, _⟩ =>
          machine.serve case spare (taken + 1) next
            (if request.op.isRead then value else valIn) bus

/-- What the machine computes of a case, from its first state and with zero on its input. -/
def computed (machine : Machine μ) (config : Config) (case : Case) : Verdict :=
  match case.stores config with
  | .error fault => .error fault
  | .ok bus =>
    if machine.halted machine.start then .error .zeroCycle
    else machine.serve case config.cycleBudget.toNat 0 machine.start 0 bus

/-- The verdict on a sequence of turns, by how it ended. -/
def graded (case : Case) : Stop × Latched μ × Journal → Verdict
  | (.faulted fault, _, _) => .error fault
  | (.exhausted, last, _) => .error (.timeout last.cycles)
  | (.halted, last, _) => case.grade last.cycles last.bus.channel.output last.bus.tally

/-- The loop over turns comes to the same as the recursion, from every state and under every budget.
The loop hands a state and a reason to stop to what grades it. The recursion grades where it stops,
and has neither a journal nor notes. -/
theorem serve_eq (machine : Machine μ) (case : Case) (spare : Nat) (state : Latched μ)
    (journal : Journal) :
    machine.serve case spare state.cycles state.core state.valIn state.bus
      = graded case (cyclesUntilHalted machine.stopped machine.turn spare state journal) := by
  -- Induction on the cycles that are left: a turn that does not fault takes one off on both sides.
  induction spare generalizing state journal with
  | zero =>
      cases hstopped : machine.stopped state with
      | true =>
          rw [cyclesUntilHalted_halted hstopped, serve]
          exact if_pos hstopped
      | false =>
          rw [cyclesUntilHalted_zero hstopped, serve]
          exact if_neg (by rw [show machine.halted state.core = false from hstopped]; decide)
  | succ spare ih =>
      cases hstopped : machine.stopped state with
      | true =>
          rw [cyclesUntilHalted_halted hstopped, serve]
          exact if_pos hstopped
      | false =>
          have hrunning : ¬ machine.halted state.core = true := by
            rw [show machine.halted state.core = false from hstopped]
            decide
          rw [serve, if_neg hrunning]
          by_cases hidle : (machine.request state.core).op = .noOp
          · rw [cyclesUntilHalted_succ hstopped (turn_idle hidle), if_pos hidle]
            exact ih ⟨machine.edge state.valIn state.core, state.valIn, state.bus,
              state.cycles + 1⟩ _
          · obtain ⟨result, next, notes, hresolve⟩ : ∃ result next notes,
                state.bus.resolve (machine.request state.core) = ⟨result, next, notes⟩ :=
              ⟨_, _, _, rfl⟩
            rw [if_neg hidle, hresolve]
            cases result with
            | error fault =>
                rw [cyclesUntilHalted_faulted hstopped (turn_faulted hidle hresolve)
                  (Nat.succ_pos spare)]
                rfl
            | ok value =>
                rw [cyclesUntilHalted_succ hstopped (turn_served hidle hresolve)]
                exact ih ⟨machine.edge state.valIn state.core,
                  if (machine.request state.core).op.isRead then value else state.valIn, next,
                  state.cycles + 1⟩ _

end Machine

/-! ### One cycle -/

section Wrapped

variable {machine : Machine μ} {pins : Device σ} {levels : σ → Levels μ}

/-- The rig is where the machine is: between two cycles, with the same value on the input, in front
of the same stores. -/
structure Houses (levels : σ → Levels μ) (settleNs : UInt32) (state : Latched μ) (rig : Rig σ) :
    Prop where
  driver : rig.driver = ⟨.low, settleNs, state.cycles⟩
  device : levels rig.device = .resting state.core state.valIn
  bus : rig.bus = state.bus

/-- The pins show the request of the machine. -/
theorem Wraps.request (h : Wraps machine pins levels) (device : σ) :
    pins.request device = machine.request (levels device).core := by
  rw [Device.request, h.busOp, h.addr, h.valOut]
  rfl

/-- Behind the rising half of a cycle the machine has taken its edge. -/
theorem Wraps.risen (h : Wraps machine pins levels) {device : σ} {core : μ} {valIn : UInt8}
    (hdevice : levels device = .resting core valIn) (ns : UInt32) :
    levels (pins.hold ns (pins.setClock true device))
      = ⟨machine.edge valIn core, true, true, false, true, valIn⟩ := by
  rw [h.hold, h.setClock, hdevice]
  rfl

/-- Behind the falling half it rests again. -/
theorem Wraps.fallen (h : Wraps machine pins levels) {device : σ} {core : μ} {valIn : UInt8}
    (hdevice : levels device = ⟨core, false, true, false, true, valIn⟩) (ns : UInt32) :
    levels (pins.hold ns device) = .resting core valIn := by
  rw [h.hold, hdevice]
  rfl

/-- A cycle of the driver is a turn of the machine. The rising half samples the request of the
machine and moves it, with the value from the cycle before. The falling half serves that request,
and puts the answer on the input for the next turn. -/
theorem cycle_wrapped (h : Wraps machine pins levels) {settleNs : UInt32} {state : Latched μ}
    {rig : Rig σ} (hrig : Houses levels settleNs state rig) :
    ∃ last notes, rig.cycle pins = ⟨(machine.turn state).result, last, notes⟩
      ∧ ((machine.turn state).result = .ok () →
        Houses levels settleNs (machine.turn state).state last) := by
  obtain ⟨core, valIn, bus, cycles⟩ := state
  obtain ⟨driver, device, stores⟩ := rig
  obtain ⟨hdriver, hdevice, hbus⟩ := hrig
  simp only at hdriver hdevice hbus
  subst hdriver hbus
  -- The request is sampled behind the rising clock, before the machine takes its edge.
  have hrequest : pins.request (pins.setClock true device) = machine.request core := by
    rw [h.request, h.setClock, hdevice]
    rfl
  have hlow : levels (pins.setClock false (pins.hold settleNs (pins.setClock true device)))
      = ⟨machine.edge valIn core, false, true, false, true, valIn⟩ := by
    rw [h.setClock, h.risen hdevice]
  simp only [Rig.cycle, Rig.advance, Rig.rise, Rig.fall, commit, hrequest, Step.andThen, Step.done,
    ClockedDevice.settle]
  by_cases hidle : (machine.request core).op = .noOp
  · rw [Machine.turn_idle hidle]
    simp only [if_pos hidle]
    exact ⟨_, _, rfl, fun _ => ⟨rfl, h.fallen hlow settleNs, rfl⟩⟩
  · simp only [if_neg hidle]
    obtain ⟨result, next, notes, hresolve⟩ :
        ∃ result next notes, stores.resolve (machine.request core) = ⟨result, next, notes⟩ :=
      ⟨_, _, _, rfl⟩
    rw [hresolve]
    cases result with
    | error fault =>
        rw [Machine.turn_faulted hidle hresolve]
        exact ⟨_, _, rfl, fun hok => by cases hok⟩
    | ok value =>
        rw [Machine.turn_served hidle hresolve]
        refine ⟨_, _, rfl, fun _ => ⟨rfl, ?_, rfl⟩⟩
        -- A read sets the value pins before the device is held; any other request leaves them.
        cases hread : (machine.request core).op.isRead with
        | false => exact h.fallen hlow settleNs
        | true => exact h.fallen (by rw [if_pos rfl, h.setValIn, hlow]; rfl) settleNs

/-- The cycles of the driver go in lockstep with the turns of the machine. Only the levels of the
device are related to the state, so the device may keep anything else beside them. -/
theorem lockstep_wrapped (h : Wraps machine pins levels) (settleNs : UInt32) :
    Lockstep machine.stopped machine.turn (fun rig => pins.halted rig.device) (Rig.cycle pins)
      (fun _ => (none : Option Note)) (fun _ => none) (Houses levels settleNs) where
  halted := by
    intro state rig hrig
    rw [h.halted, hrig.device]
    rfl
  cycle := by
    intro state rig hrig _
    obtain ⟨last, notes, hcycle, hnext⟩ := cycle_wrapped h hrig
    obtain ⟨result, next, more, hturn⟩ :
        ∃ result next more, machine.turn state = ⟨result, next, more⟩ := ⟨_, _, _, rfl⟩
    rw [hturn] at hcycle hnext
    have hblind : ∀ notes : List Note, notes.filterMap (fun _ => (none : Option Note)) = [] :=
      fun _ => List.filterMap_eq_nil_iff.mpr fun _ _ => rfl
    exact ⟨_, _, _, _, _, hturn, hcycle, by rw [hblind, hblind], hnext⟩

/-- The reset sequence brings the machine to its first state, from whatever state the device was
in. -/
theorem Wraps.powerUp (h : Wraps machine pins levels) (windowNs : UInt32) (device : σ) :
    levels (pins.powerUp windowNs (pins.setValIn 0 device)).1 = .resting machine.start 0 := by
  simp only [ClockedDevice.powerUp, ClockedDevice.settle, h.hold, h.setEnable, h.setReset,
    h.setClock, h.setValIn, Levels.held, Levels.resting, if_true]
  rfl

/-! ### Runs -/

/-- A device that wraps a machine gives the verdict that the machine computes, whatever state the
device was left in: a request is neither lost nor served twice, and the value of a read is seen one
cycle after its request. `Machine.computed` knows nothing of a clock or of pins, so every device
that only puts pins around the machine gives this verdict, whatever else it keeps beside it. -/
theorem verdict_wrapped (h : Wraps machine pins levels) (config : Config) (case : Case)
    (device : σ) (journal : Journal) :
    (pins.run config case device journal).verdict = machine.computed config case := by
  rw [Device.run, Machine.computed]
  cases case.stores config with
  | error fault => rfl
  | ok bus =>
      simp only
      generalize hready : pins.powerUp config.resetWindowNs (pins.setValIn 0 device) = ready
      obtain ⟨ready, notes⟩ := ready
      -- The reset brings the machine inside to its start, whatever state the device was in.
      have hlevels : levels ready = .resting machine.start 0 := by
        rw [← h.powerUp config.resetWindowNs device, hready]
      have hhalted : pins.halted ready = machine.halted machine.start := by
        rw [h.halted, hlevels]
        rfl
      simp only [hhalted]
      by_cases hstart : machine.halted machine.start = true
      · rw [if_pos hstart, if_pos hstart]
      · rw [if_neg hstart, if_neg hstart]
        -- Both loops stop in the same way, in states that agree unless a fault has ended them.
        obtain ⟨stop, last, rig, front, back, hturns, hcycles, -, hlast⟩ :=
          (lockstep_wrapped h config.settleNs).run config.cycleBudget.toNat
            (s := { core := machine.start, bus })
            (t := ⟨{ settleNs := config.settleNs }, ready, bus⟩)
            ⟨rfl, hlevels, rfl⟩ journal
            ((journal.record [.message (.runStarted case.name .addressed)]).record notes)
        have hserve := machine.serve_eq case config.cycleBudget.toNat
          { core := machine.start, bus } journal
        simp only at hserve hcycles
        rw [hserve, hturns, hcycles]
        cases stop with
        | faulted fault => rfl
        | exhausted =>
            have hrig := hlast (by simp)
            simp only [Machine.graded, hrig.driver]
        | halted =>
            have hrig := hlast (by simp)
            simp only [Machine.graded, Case.conclude, hrig.driver, hrig.bus]

end Wrapped

/-- `,.` echoes one byte. -/
def echoingByte : Case :=
  { name := "echo", program := #[44, 46], input := #[65], expected := #[65] }

/-- The processor in the middle of a walk, with the clock high, in reset, and with a value on its
input that nobody asked for. -/
def interrupted : Cpu :=
  { core := ⟨7, 9, .scanDecode .backward 3⟩, clock := true, reset := true, valIn := 200,
    edges := 5 }

/-- The processor wrapped once more by what takes down its calls, and left behind in the middle of
something else. -/
theorem verdict_wrapped_interrupted :
    Wraps cpu cpu.pins.recorded (fun recorded => recorded.device.levels)
      ∧ (cpu.pins.recorded.run { cycleBudget := 12 } echoingByte
          { device := interrupted, calls := #[.clock true] } .silent).verdict
        = .ok ⟨12, #[65],
            { readProgram := 3, readData := 1, writeData := 1, readIo := 1, writeIo := 1 }⟩ := by
  have hwraps := (wraps_pins cpu).recorded
  refine ⟨hwraps, ?_⟩
  rw [verdict_wrapped hwraps]
  decide +kernel

end TapeBench.Addressed
