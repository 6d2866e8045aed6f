import TapeBench.Proofs.Core.Latency
import TapeBench.Proofs.Core.Turns
import TapeBench.Proofs.Peripheral
import TapeBench.Proofs.SeparatePin.Turns

/-!
# `TapeBench.Proofs.SeparatePin.Agreement`: memories on the chip or behind the bus

The same core runs with its memories behind the addressed bus, and with its memories on the chip.
Seen from outside, both runs are one: cycle for cycle the same bytes go in and out, and the runs
end alike. What the chip does with its own memories does not show on separate pins.

* `TraceEvent.external?`, `Report.external`: what separate pins show of a trace and of a report.
* `Alike`: the chip and the core behind the bus between two cycles.
* `alike_lockstep`: cycles keep them alike.
* `run_cpu_external`: runs over separate pins are runs over the addressed bus, seen from outside.
-/

set_option autoImplicit false

namespace TapeBench

open Bus (Op Request)
open Memory (Rom Ram)

/-- What separate pins show of a trace entry: input, output and the halt. They have no address. -/
def TraceEvent.external? : TraceEvent → Option TraceEvent
  | .transaction cycle .readIo _ valueOut valueIn =>
    some (.transaction cycle .readIo 0 valueOut valueIn)
  | .transaction cycle .writeIo _ valueOut valueIn =>
    some (.transaction cycle .writeIo 0 valueOut valueIn)
  | .transaction _ _ _ _ _ => none
  | .inputFallback cycle => some (.inputFallback cycle)
  | .halted cycles => some (.halted cycles)

/-- The counts of input and output. -/
def Tally.external (tally : Tally) : Tally where
  readIo := tally.readIo
  writeIo := tally.writeIo

/-- What separate pins show of a report. -/
def Report.external (report : Report) : Report :=
  { report with tally := report.tally.external }

/-- Of the notes of the addressed bus, what separate pins show of the trace. -/
def Note.external? (note : Note) : Option TraceEvent :=
  note.event?.bind TraceEvent.external?

namespace Note

/-- What a note shows to the outside is what its trace entry shows. -/
@[simp] theorem external?_event (entry : TraceEvent) :
    (event entry).external? = entry.external? := rfl

/-- A log line shows nothing to the outside. -/
@[simp] theorem external?_message (line : Message) : (message line).external? = none := rfl

/-- So nothing of the log does. -/
@[simp] theorem filterMap_external?_message (lines : List Message) :
    lines.filterMap (external? ∘ message) = [] :=
  List.filterMap_eq_nil_iff.mpr fun _ _ => rfl

end Note

namespace SeparatePin

open Addressed (Latched cpu)
open Cpu (pins)

/-- The chip with memories and the core behind the bus are alike between two cycles: the cores,
the contents of the memories, the streams and the counts are equal, and so is the input of a core
that is about to look at it. -/
structure Alike (state : Latched Core) (rig : Rig Cpu) : Prop where
  ready : rig.device.Ready
  core : rig.device.core = state.core
  program : ∀ addr, rig.device.program.read addr = state.bus.program.read addr
  data : rig.device.data = state.bus.data
  channel : rig.channel = state.bus.channel
  cycles : rig.driver.cycles = state.cycles
  tally : rig.driver.tally = state.bus.tally.external
  input : state.core.consumes = true → rig.device.coreInput = state.valIn

/-- A turn of the core behind the bus and a cycle of the chip give the same result and show the
same, and are alike behind it unless they fault. -/
def Abreast (state : Latched Core) (rig : Rig Cpu) : Prop :=
  ∃ result state' rig' notes notes', cpu.turn state = ⟨result, state', notes⟩
    ∧ rig.cycle pins = ⟨result, rig', notes'⟩
    ∧ notes.filterMap Note.external? = notes'.filterMap Note.event?
    ∧ (result = .ok () → Alike state' rig')

/-- Memory on the chip answers a request for it as memory behind the bus does, and changes as it
does. The program memory of the chip need not be the same object: it is enough that it reads the
same at every address. -/
theorem resolve_serve {program : Rom} {ram : Ram}
    (hprogram : ∀ addr, ram.read addr = program.read addr) {request : Request}
    (hasks : request.op ≠ .noOp) (hreads : request.op ≠ .readIo)
    (hemits : request.op ≠ .writeIo) (data : Ram) (channel : Channel) (tally : Tally) :
    ∃ value next, Cpu.serve ram data request = (next, .value value)
      ∧ Peripheral.resolve ⟨program, data, channel, tally⟩ request
        = Peripheral.served request value program next channel tally [] := by
  obtain ⟨op, addr, value⟩ := request
  cases op with
  | noOp => exact absurd rfl hasks
  | readProgram => exact ⟨program.read addr, data, by simp only [Cpu.serve, hprogram], rfl⟩
  | readData => exact ⟨data.read addr, data, rfl, rfl⟩
  | writeData => exact ⟨0, data.write addr value, rfl, rfl⟩
  | readIo => exact absurd rfl hreads
  | writeIo => exact absurd rfl hemits

/-- Separate pins show nothing of a request for memory. -/
theorem external?_of_mem_servedEvents {request : Request} (hreads : request.op ≠ .readIo)
    (hemits : request.op ≠ .writeIo) {cycle : Nat} {value : UInt8} :
    ∀ note ∈ Addressed.servedEvents cycle request value false, note.external? = none := by
  obtain ⟨op, addr, out⟩ := request
  intro note hnote
  obtain rfl := List.mem_singleton.mp hnote
  cases op <;> first | rfl | exact absurd rfl hreads | exact absurd rfl hemits

section Cycle

variable {chip : Cpu} {program : Rom} {valIn : UInt8} (hready : chip.Ready)
  (hprogram : ∀ addr, chip.program.read addr = program.read addr)
  (hinput : chip.core.consumes = true → chip.coreInput = valIn)
  (settleNs : UInt32) (cycles : Nat) (tally : Tally) (channel : Channel)

include hready

/-- A byte is asked for past the end of the input. Both sides fault with the same count, and neither
has a transfer in its trace. -/
theorem abreast_starved (hreads : chip.core.request.op = .readIo) {fault : Fault} {next : Channel}
    (hread : channel.read = ⟨.error fault, next, []⟩) (hfalls : channel.fallsBack = false) :
    Abreast ⟨chip.core, valIn, ⟨program, chip.data, channel, tally⟩, cycles⟩
      ⟨⟨settleNs, cycles, tally.external⟩, chip, channel⟩ := by
  have hresolve : Peripheral.resolve ⟨program, chip.data, channel, tally⟩ chip.core.request
      = ⟨.error fault, ⟨program, chip.data, next, tally⟩, []⟩ := by
    simp only [Peripheral.resolve, hreads, hread]
  obtain ⟨stuck, hcycle⟩ :=
    Rig.cycle_starved hready channel settleNs cycles tally.external hreads hread
  refine ⟨_, _, _, _, _, Addressed.turn_cpu_faulted valIn cycles (by simp [hreads]) hresolve,
    hcycle, by simp [hfalls], ?_⟩
  intro hok
  cases hok

include hprogram hinput

/-- Behind an edge the two are alike if their data memories are, and if the chip has the value of a
read at hand. Without a read the value at the input does not matter, since the next edge ignores it.
-/
theorem alike_turned {data : Ram} (hdata : chip.turned.data = data) {inVal next : UInt8}
    (hnext : chip.core.request.op.isRead = true
      → Cpu.coreInput { chip.turned with inVal } = next) :
    Alike ⟨chip.core.edge valIn, next, ⟨program, data, channel, tally⟩, cycles⟩
      ⟨⟨settleNs, cycles, tally.external⟩, { chip.turned with inVal }, channel⟩ where
  ready := hready.turned.setInVal inVal
  core := Core.edge_congr hinput
  program := hprogram
  data := hdata
  channel := rfl
  cycles := rfl
  tally := rfl
  input := by rw [Core.consumes_edge]; exact hnext

/-- Nothing is asked for. -/
theorem abreast_idle (hidle : chip.core.request.op = .noOp) :
    Abreast ⟨chip.core, valIn, ⟨program, chip.data, channel, tally⟩, cycles⟩
      ⟨⟨settleNs, cycles, tally.external⟩, chip, channel⟩ := by
  have hdata : chip.turned.data = chip.data := by simp only [Cpu.turned, Cpu.serve, hidle]
  refine ⟨_, _, _, _, _, Addressed.turn_cpu_idle valIn cycles hidle,
    Rig.cycle_internal hready channel settleNs cycles tally.external (by simp [hidle])
      (by simp [hidle]), by simp, ?_⟩
  intro _
  exact alike_turned hready hprogram hinput settleNs (cycles + 1) tally channel hdata
    (by simp [hidle, Op.isRead])

/-- A memory is asked. Behind the bus this is a transaction, and on the chip it is done without a
sign at the pins, so the trace of the pins has nothing of it. -/
theorem abreast_internal (hasks : chip.core.request.op ≠ .noOp)
    (hreads : chip.core.request.op ≠ .readIo) (hemits : chip.core.request.op ≠ .writeIo) :
    Abreast ⟨chip.core, valIn, ⟨program, chip.data, channel, tally⟩, cycles⟩
      ⟨⟨settleNs, cycles, tally.external⟩, chip, channel⟩ := by
  obtain ⟨value, data, hserve, hresolve⟩ :=
    resolve_serve hprogram hasks hreads hemits chip.data channel tally
  have hdata : chip.turned.data = data := by simp only [Cpu.turned, hserve]
  have htally : (tally.record chip.core.request.op).external = tally.external := by
    cases hop : chip.core.request.op <;>
      first | rfl | exact absurd hop hreads | exact absurd hop hemits
  refine ⟨_, _, _, _, _, Addressed.turn_cpu_served valIn cycles hasks hresolve,
    Rig.cycle_internal hready channel settleNs cycles tally.external hemits hreads, ?_, ?_⟩
  · simpa [hreads] using external?_of_mem_servedEvents hreads hemits
  · -- The chip keeps the value of a read for the next edge, where the bus puts it on the input.
    intro _
    rw [← htally]
    apply alike_turned hready hprogram hinput settleNs (cycles + 1) _ channel hdata
    intro hread
    rw [if_pos hread]
    simp only [Cpu.coreInput, Cpu.turned, hserve]

/-- A byte is emitted. The bus serves a write and the driver of the pins collects the byte, both in
the cycle in which the core shows it. -/
theorem abreast_emits (hemits : chip.core.request.op = .writeIo) :
    Abreast ⟨chip.core, valIn, ⟨program, chip.data, channel, tally⟩, cycles⟩
      ⟨⟨settleNs, cycles, tally.external⟩, chip, channel⟩ := by
  -- The byte goes to the same output by the two ways.
  have hresolve : Peripheral.resolve ⟨program, chip.data, channel, tally⟩ chip.core.request
      = Peripheral.served chip.core.request 0 program chip.data
          (channel.write chip.core.request.value) tally [] := by
    simp only [Peripheral.resolve, hemits]
  have hdata : chip.turned.data = chip.data := by simp only [Cpu.turned, Cpu.serve, hemits]
  have htally : (tally.record chip.core.request.op).external = tally.external.record .writeIo := by
    rw [hemits]; rfl
  refine ⟨_, _, _, _, _, Addressed.turn_cpu_served valIn cycles (by simp [hemits]) hresolve,
    Rig.cycle_emits hready channel settleNs cycles tally.external hemits, ?_, ?_⟩
  · simp [hemits, Addressed.servedEvents, TraceEvent.external?, List.filterMap_cons]
  · intro _
    rw [← htally]
    exact alike_turned hready hprogram hinput settleNs (cycles + 1) _ _ hdata
      (by simp [hemits, Op.isRead])

/-- A byte is read. Both sides give it to the core with the next edge, and both trace the fallback
in front of the read if the policy stands in. -/
theorem abreast_accepts (hreads : chip.core.request.op = .readIo) {byte : UInt8} {next : Channel}
    {lines : List Message}
    (hread : channel.read = ⟨.ok byte, next, lines.map Note.message⟩) :
    Abreast ⟨chip.core, valIn, ⟨program, chip.data, channel, tally⟩, cycles⟩
      ⟨⟨settleNs, cycles, tally.external⟩, chip, channel⟩ := by
  -- The bus answers the read from the channel. The pins take the byte from the same channel.
  have hresolve : Peripheral.resolve ⟨program, chip.data, channel, tally⟩ chip.core.request
      = Peripheral.served chip.core.request byte program chip.data next tally
          (lines.map Note.message) := by
    simp only [Peripheral.resolve, hreads, hread]
  have hdata : chip.turned.data = chip.data := by simp only [Cpu.turned, Cpu.serve, hreads]
  have htally : (tally.record chip.core.request.op).external = tally.external.record .readIo := by
    rw [hreads]; rfl
  refine ⟨_, _, _, _, _, Addressed.turn_cpu_served valIn cycles (by simp [hreads]) hresolve,
    Rig.cycle_accepts hready channel settleNs cycles tally.external hreads hread, ?_, ?_⟩
  · -- The bus records what the core puts out at a read, and that is zero on either side.
    have hvalue : chip.core.request.value = 0 := Core.value_of_isRead (by rw [hreads]; rfl)
    cases hfalls : channel.fallsBack <;>
      simp [hreads, hvalue, Addressed.servedEvents, TraceEvent.external?, List.filterMap_cons]
  · intro _
    rw [← htally]
    apply alike_turned hready hprogram hinput settleNs (cycles + 1) _ _ hdata
    intro hgiven
    rw [if_pos hgiven]
    simp only [Cpu.coreInput, Cpu.turned, Cpu.serve, hreads]

/-- A turn and a cycle from alike states keep abreast. One case for each operation that the core may
show. -/
theorem abreast_turned :
    Abreast ⟨chip.core, valIn, ⟨program, chip.data, channel, tally⟩, cycles⟩
      ⟨⟨settleNs, cycles, tally.external⟩, chip, channel⟩ := by
  -- What the core asks for is input, output, nothing, or a byte of memory.
  by_cases hreads : chip.core.request.op = .readIo
  · rcases channel.read_cases with ⟨byte, next, lines, hread⟩ | ⟨hfalls, hread⟩
    · exact abreast_accepts hready hprogram hinput settleNs cycles tally channel hreads hread
    · exact abreast_starved hready settleNs cycles tally channel hreads hread hfalls
  by_cases hemits : chip.core.request.op = .writeIo
  · exact abreast_emits hready hprogram hinput settleNs cycles tally channel hemits
  by_cases hidle : chip.core.request.op = .noOp
  · exact abreast_idle hready hprogram hinput settleNs cycles tally channel hidle
  · exact abreast_internal hready hprogram hinput settleNs cycles tally channel hidle hreads hemits

end Cycle

/-- Alike states stay alike under turns and cycles, and are halted together. What corresponds in the
traces is what the pins show of the one, and all of the other. -/
theorem alike_lockstep :
    Lockstep cpu.stopped cpu.turn (fun rig => pins.halted rig.device) (Rig.cycle pins)
      Note.external? Note.event? Alike where
  halted := by
    intro state rig h
    change state.core.halted = rig.device.core.halted
    rw [h.core]
  cycle := by
    intro state rig h _
    obtain ⟨core, valIn, ⟨program, data, channel, tally⟩, cycles⟩ := state
    obtain ⟨⟨settleNs, cycles', tally'⟩, chip, channel'⟩ := rig
    obtain ⟨hready, hcore, hprogram, hdata, hchannel, hcycles, htally, hinput⟩ := h
    simp only at hready hcore hprogram hdata hchannel hcycles htally hinput
    subst hcore hdata hchannel hcycles htally
    exact abreast_turned hready hprogram hinput settleNs _ tally _

/-! ### Whole runs -/

/-- A grade does not depend on counts: grading a run on what is left of its counts is to leave out
the others from its report. -/
theorem grade_external (case : Case) (cycles : Nat) (output : Bytes) (tally : Tally) :
    case.grade cycles output tally.external
      = (case.grade cycles output tally).map Report.external := by
  unfold Case.grade
  split <;> rfl

/-- A case without a data image starts with data memory that is zero. -/
theorem stores_of_empty {case : Case} (himage : case.dataImage = #[]) {program : Rom}
    (hload : Rom.load case.program = .ok program) (config : Config) :
    case.stores config
      = .ok { program, data := .zero,
              channel := .ofInput case.input (case.policy config .addressed) } := by
  have hzero : Ram.load #[] = .ok .zero := by
    simp [Ram.load, Ram.zero]
  simp only [Case.stores, hload, himage, hzero]

/-- Where the case or the bench names a policy, the encoding has no say in it. -/
theorem policy_eq {config : Config} {case : Case}
    (h : case.onExhausted.isSome ∨ config.onExhausted.isSome) (encoding other : Exhaustion) :
    case.policy config encoding = case.policy config other := by
  unfold Case.policy
  cases hcase : case.onExhausted <;> cases hconfig : config.onExhausted <;> simp_all

/-- The chip is loaded with the program that is behind the bus, so the two start alike. This is
where the policy has to be settled: otherwise the two channels would differ in what stands in for
exhausted input. -/
theorem alike_start (config : Config) (case : Case) (program : Rom)
    (hpolicy : case.onExhausted.isSome ∨ config.onExhausted.isSome) :
    Alike
      { core := cpu.start,
        bus := { program, data := .zero,
                 channel := .ofInput case.input (case.policy config .addressed) } }
      ⟨{ settleNs := config.settleNs },
        { program := Ram.zero.writeAll 0 program.bytes.toList, enable := true },
        .ofInput case.input (case.policy config .separatePin)⟩ where
  ready := ⟨⟨rfl, rfl, rfl⟩, rfl, rfl⟩
  core := rfl
  program := Cpu.read_program program
  data := rfl
  channel := by rw [policy_eq hpolicy]
  cycles := rfl
  tally := rfl
  input := by
    intro h
    cases h

/-- What separate pins show of a trace grows with the notes. -/
theorem external_record {journal : Journal} (h : journal.Traces) (notes : List Note) :
    (journal.record notes).events.filterMap TraceEvent.external?
      = journal.events.filterMap TraceEvent.external? ++ notes.filterMap Note.external? := by
  rw [Journal.events_record h, List.filterMap_append, List.filterMap_filterMap]
  rfl

/-- Both journals hold what was recorded before the first cycle, which separate pins do not show,
and then the notes of the cycles. -/
theorem events_opening {case : Case} (himage : case.dataImage = #[]) (program : Rom)
    (level? : Option Level) {notes notes' : List Note}
    (h : notes.filterMap Note.external? = notes'.filterMap Note.event?) :
    (((Journal.keeping true level?).record (Cpu.opening case program)).record notes').events
      = (((Journal.keeping true level?).record
          [.message (.runStarted case.name .addressed)]).record notes).events.filterMap
            TraceEvent.external? := by
  have htraces := Journal.traces_keeping level?
  rw [external_record (htraces.record _), external_record htraces,
    Journal.events_record (htraces.record _), Journal.events_record htraces, h, Cpu.opening,
    imageIgnored, himage]
  rfl

/-- A case without a data image, for which the policy at the end of the input is settled, runs over
separate pins as it runs over the addressed bus, cycle for cycle. The verdict is that of the bus
with the counts of the accesses to memory left out, and the trace is that of the bus without them,
since a chip that holds its own memory shows only the two streams. The data image has to be empty
because separate pins cannot load one, and the policy has to be settled because the two encodings
have different defaults. -/
theorem run_cpu_external (config : Config) (case : Case) (himage : case.dataImage = #[])
    (hpolicy : case.onExhausted.isSome ∨ config.onExhausted.isSome) (level? : Option Level) :
    (pins.run config case {} (.keeping true level?)).verdict
        = (cpu.pins.run config case cpu.powerOn (.keeping true level?)).verdict.map
            Report.external
      ∧ (pins.run config case {} (.keeping true level?)).journal.events
        = (cpu.pins.run config case cpu.powerOn (.keeping true level?)).journal.events.filterMap
            TraceEvent.external? := by
  have htraces := Journal.traces_keeping level?
  obtain ⟨hverdict, hjournal⟩ :=
    cpu.run_pins config case cpu.powerOn (.keeping true level?)
  rw [hverdict, hjournal]
  cases hload : Rom.load case.program with
  | error fault =>
      simp only [Device.run, Addressed.Machine.run, Case.stores, hload,
        Journal.events_record htraces]
      exact ⟨rfl, rfl⟩
  | ok program =>
      rw [Cpu.run_pins {} rfl rfl config hload, Addressed.Machine.run,
        stores_of_empty himage hload]
      obtain ⟨stop, state, rig, notes, notes', hturns, hcycles, hnotes, halike⟩ :=
        alike_lockstep.run config.cycleBudget.toNat (alike_start config case program hpolicy)
          ((Journal.keeping true level?).record [.message (.runStarted case.name .addressed)])
          ((Journal.keeping true level?).record (Cpu.opening case program))
      have hfirst : cpu.halted cpu.start = false := rfl
      simp only [hfirst, Bool.false_eq_true, if_false, hturns, hcycles]
      have hevents := events_opening himage program level? hnotes
      -- The loops stopped alike, and in alike states unless a cycle faulted.
      cases stop with
      | faulted fault => exact ⟨rfl, hevents⟩
      | exhausted =>
          have hcount := (halike (by simp)).cycles
          exact ⟨congrArg (fun cycles => Except.error (Fault.timeout cycles)) hcount, hevents⟩
      | halted =>
          obtain ⟨_, _, _, _, hchannel, hcount, htally, _⟩ := halike (by simp)
          rw [Cpu.closing, Case.events_conclude ((htraces.record _).record _),
            Case.events_conclude ((htraces.record _).record _), hchannel, hcount, htally, hevents,
            List.filterMap_append]
          exact ⟨grade_external case _ _ _, rfl⟩

/-- `,.,.` reads one byte of input and one behind it. -/
def echoing : Case :=
  { name := "echo", program := #[44, 46, 44, 46], input := #[7], expected := #[7, 9],
    onExhausted := some (.returnByte 9) }

/-- The case reads behind its input, and both runs of it take the same 22 cycles. -/
theorem run_cpu_external_echoing :
    echoing.dataImage = #[]
      ∧ (echoing.onExhausted.isSome ∨ ({} : Config).onExhausted.isSome)
      ∧ (pins.run {} echoing {} (.keeping true none)).verdict
        = .ok ⟨22, #[7, 9], { readIo := 2, writeIo := 2 }⟩
      ∧ (.inputFallback 12)
        ∈ (pins.run {} echoing {} (.keeping true none)).journal.events := by
  obtain ⟨hverdict, hevents⟩ := run_cpu_external {} echoing rfl (.inl rfl) none
  refine ⟨rfl, .inl rfl, ?_, ?_⟩
  · rw [hverdict]
    decide +kernel
  · rw [hevents]
    decide +kernel

end SeparatePin

end TapeBench
