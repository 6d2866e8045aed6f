import TapeBench.Addressed.Cpu
import TapeBench.Proofs.Addressed.Latency
import TapeBench.Proofs.Peripheral

/-!
# `TapeBench.Proofs.Core.Turns`: the core, one turn at a time

`turn_cpu_idle`, `turn_cpu_served` and `turn_cpu_faulted` say what one turn of the core does, and
`turn_cpu_ok` and `turn_cpu_error` that it does nothing else.
`Leads n state last` says that the core behind the addressed bus comes from one state to another
in `n` fault-free turns. A read and the stage that consumes its value belong together, so the
lemmas below go over pairs of turns where there is such a pair.

* `leads_instruction`: an instruction is fetched and decoded.
* `leads_cell`: the current cell is loaded and used.
* `leads_store`, `leads_emit`, `leads_accept`: a cell is written, an output byte is written, and an
  input byte is read.
* `leads_scan`: a walk to a bracket goes over one byte.
-/

set_option autoImplicit false

namespace TapeBench

open Bus (Op Request)

/-- The stores with one more transaction counted. -/
def Peripheral.counted (bus : Peripheral) (op : Op) : Peripheral :=
  { bus with tally := bus.tally.record op }

namespace Addressed

/-- The pins show the request of the core. Both sides are records, and they agree field by field. -/
@[simp] theorem cpu_request (core : Core) : cpu.request core = core.request := by
  simp [Machine.request, cpu]

section Turn

variable {core : Core} (valIn : UInt8) {bus next : Peripheral} (cycles : Nat)

/-- A turn whose stage asks for nothing: only the core changes. -/
theorem turn_cpu_idle (idle : core.request.op = .noOp) :
    cpu.turn ⟨core, valIn, bus, cycles⟩
      = ⟨.ok (), ⟨core.edge valIn, valIn, bus, cycles + 1⟩,
          (core.edgeMessages valIn).map Note.message⟩ :=
  Machine.turn_idle ((cpu_request core).symm ▸ idle)

/-- A turn whose request is served. -/
theorem turn_cpu_served (asks : core.request.op ≠ .noOp) {value : UInt8} {notes : List Note}
    (served : bus.resolve core.request = ⟨.ok value, next, notes⟩) :
    cpu.turn ⟨core, valIn, bus, cycles⟩
      = ⟨.ok (),
          ⟨core.edge valIn, if core.request.op.isRead then value else valIn, next, cycles + 1⟩,
          (core.edgeMessages valIn).map Note.message
            ++ (notes ++ servedEvents cycles core.request value
              (core.request.op = .readIo && bus.channel.fallsBack))⟩ := by
  rw [← cpu_request core] at asks served ⊢
  exact Machine.turn_served asks served

/-- A turn whose request cannot be served. -/
theorem turn_cpu_faulted (asks : core.request.op ≠ .noOp) {fault : Fault} {notes : List Note}
    (failed : bus.resolve core.request = ⟨.error fault, next, notes⟩) :
    cpu.turn ⟨core, valIn, bus, cycles⟩
      = ⟨.error fault, ⟨core.edge valIn, valIn, next, cycles⟩,
          (core.edgeMessages valIn).map Note.message ++ notes⟩ := by
  rw [← cpu_request core] at asks failed
  exact Machine.turn_faulted asks failed

/-- What a fault-free turn was: an edge without a request, or an edge with a request that the stores
have answered. The edge is the same, as it takes the value from the turn before. -/
theorem turn_cpu_ok {last : Latched Core} {notes : List Note}
    (h : cpu.turn ⟨core, valIn, bus, cycles⟩ = ⟨.ok (), last, notes⟩) :
    (core.request.op = .noOp ∧ last = ⟨core.edge valIn, valIn, bus, cycles + 1⟩
        ∧ notes = (core.edgeMessages valIn).map Note.message)
      ∨ (core.request.op ≠ .noOp ∧ ∃ value served, ∃ lines : List Message,
        bus.resolve core.request = ⟨.ok value, served, lines.map Note.message⟩
        ∧ last = ⟨core.edge valIn, if core.request.op.isRead then value else valIn, served,
          cycles + 1⟩
        ∧ notes = (core.edgeMessages valIn).map Note.message ++ (lines.map Note.message
          ++ servedEvents cycles core.request value
            (core.request.op = .readIo && bus.channel.fallsBack))) := by
  -- The three shapes of a turn: idle, served and faulted. The last one is not fault-free.
  by_cases hidle : core.request.op = .noOp
  · rw [turn_cpu_idle valIn cycles hidle] at h
    cases h
    exact .inl ⟨hidle, rfl, rfl⟩
  · obtain ⟨result, served, more, hserved⟩ :
        ∃ result served more, bus.resolve core.request = ⟨result, served, more⟩ := ⟨_, _, _, rfl⟩
    obtain ⟨lines, rfl⟩ := Peripheral.exists_lines_of_resolve hserved
    cases result with
    | error fault =>
        rw [turn_cpu_faulted valIn cycles hidle hserved] at h
        cases h
    | ok value =>
        rw [turn_cpu_served valIn cycles hidle hserved] at h
        cases h
        exact .inr ⟨hidle, value, served, lines, hserved, rfl, rfl⟩

/-- A turn that faults reads past the end of the input, and leaves nothing in the trace. Every other
request is answered, as neither the memories nor the output can fail. -/
theorem turn_cpu_error {fault : Fault} {stuck : Latched Core} {notes : List Note}
    (h : cpu.turn ⟨core, valIn, bus, cycles⟩ = ⟨.error fault, stuck, notes⟩) :
    core.request.op ≠ .noOp ∧ fault = .inputExhausted bus.channel.consumed
      ∧ (∃ served more, bus.resolve core.request = ⟨.error fault, served, more⟩)
      ∧ ∃ lines : List Message, notes = lines.map Note.message := by
  -- Of the three shapes of a turn only one faults.
  by_cases hidle : core.request.op = .noOp
  · rw [turn_cpu_idle valIn cycles hidle] at h
    cases h
  · obtain ⟨result, served, more, hserved⟩ :
        ∃ result served more, bus.resolve core.request = ⟨result, served, more⟩ := ⟨_, _, _, rfl⟩
    cases result with
    | ok value =>
        rw [turn_cpu_served valIn cycles hidle hserved] at h
        cases h
    | error fault =>
        obtain ⟨lines, rfl⟩ := Peripheral.exists_lines_of_resolve hserved
        rw [turn_cpu_faulted valIn cycles hidle hserved] at h
        cases h
        exact ⟨hidle, Peripheral.exhausted_of_resolve hserved, ⟨served, _, hserved⟩,
          core.edgeMessages valIn ++ lines, by rw [List.map_append]⟩

end Turn

/-- `n` fault-free turns of the core lead from one state to another. -/
def Leads (n : Nat) (state last : Latched Core) : Prop :=
  ∃ notes, Cycled cpu.stopped cpu.turn n state notes last

namespace Leads

/-- No turn leads nowhere else. -/
theorem refl (state : Latched Core) : Leads 0 state state := ⟨[], .refl state⟩

/-- Turns may be taken in two parts, and their numbers add up. -/
theorem trans {n m : Nat} {state middle last : Latched Core} (first : Leads n state middle)
    (second : Leads m middle last) : Leads (n + m) state last := by
  obtain ⟨notes, hfirst⟩ := first
  obtain ⟨more, hsecond⟩ := second
  exact ⟨notes ++ more, hfirst.trans hsecond⟩

/-- A turn whose stage asks for nothing is a sequence of length one. -/
theorem idle {core : Core} (running : core.halted = false) (idle : core.request.op = .noOp)
    (valIn : UInt8) (bus : Peripheral) (cycles : Nat) :
    Leads 1 ⟨core, valIn, bus, cycles⟩ ⟨core.edge valIn, valIn, bus, cycles + 1⟩ :=
  ⟨_, .single running (turn_cpu_idle valIn cycles idle)⟩

/-- So is a turn whose request is served. -/
theorem served {core : Core} (running : core.halted = false) (asks : core.request.op ≠ .noOp)
    {bus next : Peripheral} {value : UInt8} {notes : List Note}
    (served : bus.resolve core.request = ⟨.ok value, next, notes⟩) (valIn : UInt8)
    (cycles : Nat) :
    Leads 1 ⟨core, valIn, bus, cycles⟩
      ⟨core.edge valIn, if core.request.op.isRead then value else valIn, next, cycles + 1⟩ :=
  ⟨_, .single running (turn_cpu_served valIn cycles asks served)⟩

end Leads

variable (pc ptr : UInt16) (valIn : UInt8) (bus : Peripheral) (cycles : Nat)

/-- An instruction is fetched and decoded. -/
theorem leads_instruction :
    Leads 2 ⟨⟨pc, ptr, .fetch⟩, valIn, bus, cycles⟩
      ⟨Core.decode ⟨pc, ptr, .decode⟩ (bus.program.read pc), bus.program.read pc,
        bus.counted .readProgram, cycles + 2⟩ := by
  -- The byte is on the input at the edge that ends the next turn, which decodes it.
  have hfetch : Leads 1 ⟨⟨pc, ptr, .fetch⟩, valIn, bus, cycles⟩
      ⟨⟨pc, ptr, .decode⟩, bus.program.read pc, bus.counted .readProgram, cycles + 1⟩ :=
    .served rfl (by simp [Core.request]) rfl valIn cycles
  exact hfetch.trans (.idle rfl rfl _ _ _)

/-- The current cell is loaded and used. -/
theorem leads_cell (wanted : CellUse) :
    Leads 2 ⟨⟨pc, ptr, .loadCell wanted⟩, valIn, bus, cycles⟩
      ⟨Core.apply ⟨pc, ptr, .apply wanted⟩ wanted (bus.data.read ptr), bus.data.read ptr,
        bus.counted .readData, cycles + 2⟩ := by
  -- The cell is on the input one turn after the request for it.
  have hload : Leads 1 ⟨⟨pc, ptr, .loadCell wanted⟩, valIn, bus, cycles⟩
      ⟨⟨pc, ptr, .apply wanted⟩, bus.data.read ptr, bus.counted .readData, cycles + 1⟩ :=
    .served rfl (by simp [Core.request]) rfl valIn cycles
  exact hload.trans (.idle rfl rfl _ _ _)

/-- The current cell is written, and the next instruction is up. -/
theorem leads_store (value : UInt8) :
    Leads 1 ⟨⟨pc, ptr, .store value⟩, valIn, bus, cycles⟩
      ⟨⟨pc + 1, ptr, .fetch⟩, valIn,
        { bus with data := bus.data.write ptr value }.counted .writeData, cycles + 1⟩ :=
  .served rfl (by simp [Core.request]) rfl valIn cycles

/-- A byte is written to the output, and the next instruction is up. -/
theorem leads_emit (value : UInt8) :
    Leads 1 ⟨⟨pc, ptr, .emit value⟩, valIn, bus, cycles⟩
      ⟨⟨pc + 1, ptr, .fetch⟩, valIn,
        { bus with channel := bus.channel.write value }.counted .writeIo, cycles + 1⟩ :=
  .served rfl (by simp [Core.request]) rfl valIn cycles

/-- A byte is read from the input and waits to be stored. The read is one turn, and the turn behind
it takes the byte over from the input pins. -/
theorem leads_accept {value : UInt8} {channel : Channel} {notes : List Note}
    (h : bus.channel.read = ⟨.ok value, channel, notes⟩) :
    Leads 2 ⟨⟨pc, ptr, .readInput⟩, valIn, bus, cycles⟩
      ⟨⟨pc, ptr, .store value⟩, value, { bus with channel }.counted .readIo, cycles + 2⟩ := by
  have hserved : bus.resolve (Core.request ⟨pc, ptr, .readInput⟩)
      = Peripheral.served ⟨.readIo, ptr, 0⟩ value bus.program bus.data channel bus.tally
          notes := by
    obtain ⟨program, data, streams, tally⟩ := bus
    simp only [Peripheral.resolve, Core.request, h]
  have hread : Leads 1 ⟨⟨pc, ptr, .readInput⟩, valIn, bus, cycles⟩
      ⟨⟨pc, ptr, .acceptInput⟩, value, { bus with channel }.counted .readIo, cycles + 1⟩ :=
    .served rfl (by simp [Core.request]) hserved valIn cycles
  exact hread.trans (.idle rfl rfl _ _ _)

/-- A read past the end of the input faults in its turn. -/
theorem turn_starved {fault : Fault} {channel : Channel} {notes : List Note}
    (h : bus.channel.read = ⟨.error fault, channel, notes⟩) :
    ∃ stuck more, cpu.turn ⟨⟨pc, ptr, .readInput⟩, valIn, bus, cycles⟩
      = ⟨.error fault, stuck, more⟩ := by
  have hfailed : bus.resolve (Core.request ⟨pc, ptr, .readInput⟩)
      = ⟨.error fault, { bus with channel }, notes⟩ := by
    obtain ⟨program, data, streams, tally⟩ := bus
    simp only [Peripheral.resolve, Core.request, h]
  exact ⟨_, _, turn_cpu_faulted valIn cycles (by simp [Core.request]) hfailed⟩

/-- A walk to a bracket goes over one byte. -/
theorem leads_scan (direction : Direction) (depth : UInt16) :
    Leads 2 ⟨⟨pc, ptr, .scan direction depth⟩, valIn, bus, cycles⟩
      ⟨Core.scan ⟨pc, ptr, .scanDecode direction depth⟩ direction depth (bus.program.read pc),
        bus.program.read pc, bus.counted .readProgram, cycles + 2⟩ := by
  have hread : Leads 1 ⟨⟨pc, ptr, .scan direction depth⟩, valIn, bus, cycles⟩
      ⟨⟨pc, ptr, .scanDecode direction depth⟩, bus.program.read pc, bus.counted .readProgram,
        cycles + 1⟩ :=
    .served rfl (by simp [Core.request]) rfl valIn cycles
  exact hread.trans (.idle rfl rfl _ _ _)

end Addressed

end TapeBench
