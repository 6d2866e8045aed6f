import TapeBench.Core
import TapeBench.Memory.Ram
import TapeBench.SeparatePin.Driver

/-!
# `TapeBench.SeparatePin.Cpu`: a processor with memories on the chip

The reference processor with separate pins. Program and data are on the chip, so only input and
output leave it. A program arrives over the load pins and survives a reset; data memory is cleared
by a reset.

* `Pending`: where the value for the next edge comes from.
* `Cpu`: the levels at its pins, the core and the memories.
* `Cpu.hold`: what the chip does while it is held.
* `Cpu.pins`: the processor as a device.
-/

set_option autoImplicit false

namespace TapeBench.SeparatePin

open Bus (Op Request)
open Memory (Ram)

/-- Source of the value that the core consumes at the next edge:

- `value`: a value that the chip served itself;
- `fromPin`: the input pins. -/
inductive Pending where
  | value (byte : UInt8)
  | fromPin
  deriving DecidableEq, Inhabited

/-- State of the processor:

- `core`: the sequencer;
- `program`: instruction memory;
- `data`: data memory;
- `pending`: where the value for the next edge comes from;
- `clock`: level of the clock line;
- `lastClock`: level of the clock line when the chip was held last;
- `reset`: level of the reset line;
- `enable`: level of the enable line;
- `inVal`: level of the input pins;
- `instrAddr`: address at the load pins;
- `instrIn`: byte at the load pins;
- `instrWrite`: level of the write line of the load pins. -/
structure Cpu where
  core : Core := {}
  program : Ram := .zero
  data : Ram := .zero
  pending : Pending := .value 0
  clock : Bool := false
  lastClock : Bool := false
  reset : Bool := false
  enable : Bool := false
  inVal : UInt8 := 0
  instrAddr : UInt16 := 0
  instrIn : UInt8 := 0
  instrWrite : Bool := false
  deriving DecidableEq

namespace Cpu

/-- Holding the chip now takes a rising edge. -/
def rising (cpu : Cpu) : Bool :=
  !cpu.reset && cpu.clock && !cpu.lastClock && cpu.enable

/-- The value that the core consumes at an edge. -/
def coreInput (cpu : Cpu) : UInt8 :=
  match cpu.pending with
  | .value byte => byte
  | .fromPin => cpu.inVal

/-- Serves a request of the core on the chip: data memory after it, and where the value for the
next edge comes from. -/
def serve (program data : Ram) (request : Request) : Ram × Pending :=
  match request.op with
  | .readProgram => (data, .value (program.read request.addr))
  | .readData => (data, .value (data.read request.addr))
  | .writeData => (data.write request.addr request.value, .value 0)
  | .readIo => (data, .fromPin)
  | .noOp | .writeIo => (data, .value 0)

/-- The chip after it was held. The load pins are served first; then reset wins over the clock. -/
def hold (cpu : Cpu) : Cpu :=
  let rising := cpu.rising
  let valIn := cpu.coreInput
  match cpu with
  | ⟨core, program, data, pending, clock, _, reset, enable, inVal, instrAddr, instrIn,
      instrWrite⟩ =>
    -- The load port does not look at the clock or the reset line.
    let program := if instrWrite then program.write instrAddr instrIn else program
    -- A reset clears the core and the data. The program has to outlive it, as it is loaded before.
    if reset then
      ⟨{}, program, .zero, .value 0, clock, clock, reset, enable, inVal, instrAddr, instrIn,
        instrWrite⟩
    else if rising then
      let (data, pending) := serve program data core.request
      ⟨core.edge valIn, program, data, pending, clock, clock, reset, enable, inVal, instrAddr,
        instrIn, instrWrite⟩
    else
      ⟨core, program, data, pending, clock, clock, reset, enable, inVal, instrAddr, instrIn,
        instrWrite⟩

/-- What the chip logs when it is held. -/
def holdMessages (cpu : Cpu) : List Message :=
  if cpu.rising then cpu.core.edgeMessages cpu.coreInput else []

/-- The processor as a device with separate pins. -/
def pins : Device Cpu where
  setClock := fun high cpu => { cpu with clock := high }
  setReset := fun high cpu => { cpu with reset := high }
  setEnable := fun high cpu => { cpu with enable := high }
  halted := fun cpu => cpu.core.halted
  hold := fun _ cpu => cpu.hold
  holdMessages := holdMessages
  outEnable := fun cpu => cpu.core.request.op = .writeIo
  outVal := fun cpu => if cpu.core.request.op = .writeIo then cpu.core.request.value else 0
  inReading := fun cpu => cpu.core.request.op = .readIo
  setInVal := fun value cpu => { cpu with inVal := value }
  setInstrAddr := fun addr cpu => { cpu with instrAddr := addr }
  setInstrIn := fun value cpu => { cpu with instrIn := value }
  setInstrWrite := fun high cpu => { cpu with instrWrite := high }

end Cpu

end TapeBench.SeparatePin
