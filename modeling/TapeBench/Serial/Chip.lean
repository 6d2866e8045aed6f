import TapeBench.Core
import TapeBench.Serial.Link
import TapeBench.Serial.Phase
import TapeBench.Serial.Register

/-!
# `TapeBench.Serial.Chip`: a processor behind the serial link

The reference processor on the serial link spells every request of its core out over the phases
operation code, high address byte, low address byte and execution. It stays in the execution phase
until the host raises `op_done`, takes the value of a read from the input register, and only then
lets the core take its edge. A request for nothing costs one idle tick.

A slow chip divides the clock: it ticks once in so many pulses, so the host sees each phase that
often.

* `Chip`: the core, the phase, and the register that the host writes.
* `Chip.tick`: one internal clock tick.
* `Chip.outputs`: the register that the host reads.
* `Chip.link`: the processor as a device behind the link. Its calls never fail.
-/

set_option autoImplicit false

namespace TapeBench.Serial

open Bus (Op Request)

/-- State of the processor:

- `core`: the sequencer;
- `phase`: the phase that the chip shows;
- `latched`: the value of the read that was served last;
- `inputs`: the register that the host writes;
- `reset`: level of the reset line;
- `divider`: pulses for each tick;
- `prescale`: pulses since the last tick;
- `ticks`: ticks since reset. -/
structure Chip where
  core : Core := {}
  phase : Phase := .idle
  latched : UInt8 := 0
  inputs : InputRegister := {}
  reset : Bool := false
  divider : Nat := 1
  prescale : Nat := 0
  ticks : Nat := 0
  deriving DecidableEq, Inhabited

namespace Chip

/-- A chip that ticks once in `divider` pulses. A divider of zero counts as one. -/
def withDivider (divider : Nat) : Chip where
  divider := max divider 1

/-- The value that the core consumes if it takes its edge now: for a read that the host has served
it is the byte in the input register. -/
def coreInput (chip : Chip) : UInt8 :=
  if chip.phase = .execute && chip.core.request.op.isRead then chip.inputs.busIn
  else chip.latched

/-- The core takes an edge at the next tick. -/
def coreAdvances (chip : Chip) : Bool :=
  match chip.phase with
  | .idle => chip.core.request.op = .noOp
  | .execute => chip.inputs.opDone
  | .opcode | .addressHigh | .addressLow => false

/-- The phase after a tick at which the core takes no edge. -/
def nextPhase : Phase → Phase
  | .idle => .opcode
  | .opcode => .addressHigh
  | .addressHigh => .addressLow
  | .addressLow => .execute
  | .execute => .execute

/-- One internal clock tick. -/
def tick (chip : Chip) : Chip :=
  if chip.coreAdvances then
    { chip with
      core := chip.core.edge chip.coreInput
      latched := chip.coreInput
      phase := .idle
      ticks := chip.ticks + 1 }
  else
    { chip with phase := nextPhase chip.phase, ticks := chip.ticks + 1 }

/-- The byte that the chip shows in its phase. -/
def busOut (chip : Chip) : UInt8 :=
  let request := chip.core.request
  match chip.phase with
  | .idle => 0
  | .opcode => request.op.code
  | .addressHigh => (request.addr >>> 8).toUInt8
  | .addressLow => request.addr.toUInt8
  | .execute => request.value

/-- The register that the host reads. -/
def outputs (chip : Chip) : OutputRegister :=
  ⟨chip.busOut, chip.phase.state, chip.core.halted⟩

/-- The chip takes notice of its clock. -/
def awake (chip : Chip) : Bool :=
  !chip.reset && chip.inputs.enable && !chip.core.halted

/-- The chip after one pulse of the external clock. -/
def pulse (chip : Chip) : Chip :=
  if chip.awake then
    if chip.divider ≤ chip.prescale + 1 then
      tick { chip with prescale := 0 }
    else
      { chip with prescale := chip.prescale + 1 }
  else
    chip

/-- What the chip logs at one pulse of the external clock. -/
def pulseMessages (chip : Chip) : List Message :=
  if chip.awake && chip.divider ≤ chip.prescale + 1 && chip.coreAdvances then
    chip.core.edgeMessages chip.coreInput
  else
    []

/-- The chip with its reset line driven. A high reset line clears everything but the input
register. -/
def driveReset (chip : Chip) (high : Bool) : Chip :=
  if high then
    { chip with core := {}, phase := .idle, latched := 0, reset := true, prescale := 0, ticks := 0 }
  else
    { chip with reset := false }

/-- The processor as a device behind the serial link. -/
def link : Link Chip where
  setReset := fun high chip => (.ok (), chip.driveReset high)
  setInputs := fun bits chip => (.ok (), { chip with inputs := .ofBits bits })
  getOutputs := fun chip => (.ok chip.outputs.toBits, chip)
  stepClock := fun chip => (.ok (), chip.pulse)
  stepMessages := pulseMessages

end Chip

end TapeBench.Serial
