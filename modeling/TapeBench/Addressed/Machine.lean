import TapeBench.Addressed.Driver

/-!
# `TapeBench.Addressed.Machine`: synchronous machines on the addressed bus

A synchronous machine shows a request in every state, and goes from state to state with the value
on its input. Behind pins it becomes a device on the addressed bus.

* `Machine`: a machine with states of type `μ`.
* `Chip`: the levels at the pins, the machine's state, and a count of the edges taken since reset.
* `Machine.hold`: what the chip does while it is held: reset wins over the clock, and an edge is
  taken when the clock was low at the last hold and is high at this one, if the chip is enabled.
* `Machine.pins`: the machine as a device.
-/

set_option autoImplicit false

namespace TapeBench.Addressed

/-- A synchronous machine with states of type `μ`. What it shows depends on its state only:

- `start`: the state after reset;
- `busOp`: code of the requested operation;
- `addr`: target address;
- `valOut`: outgoing value;
- `halted`: the machine has stopped;
- `edge`: the state after an edge at which the input shows a value;
- `edgeMessages`: what the machine logs at such an edge. -/
structure Machine (μ : Type) where
  start : μ
  busOp : μ → UInt8
  addr : μ → UInt16
  valOut : μ → UInt8
  halted : μ → Bool
  edge : UInt8 → μ → μ
  edgeMessages : UInt8 → μ → List Message := fun _ _ => []

/-- A machine behind pins:

- `core`: state of the machine;
- `clock`: level of the clock line;
- `lastClock`: level of the clock line when the chip was held last;
- `reset`: level of the reset line;
- `enable`: level of the enable line;
- `valIn`: level of the value pins;
- `edges`: edges taken since reset. -/
structure Chip (μ : Type) where
  core : μ
  clock : Bool := false
  lastClock : Bool := false
  reset : Bool := false
  enable : Bool := false
  valIn : UInt8 := 0
  edges : Nat := 0
  deriving DecidableEq

/-- Holding the chip now takes a rising edge. -/
def Chip.rising {μ : Type} (chip : Chip μ) : Bool :=
  !chip.reset && chip.clock && !chip.lastClock && chip.enable

namespace Machine

variable {μ : Type}

/-- The chip at power-on. -/
def powerOn (machine : Machine μ) : Chip μ where
  core := machine.start

/-- The chip after it was held. -/
def hold (machine : Machine μ) (chip : Chip μ) : Chip μ :=
  if chip.reset then
    { chip with core := machine.start, edges := 0, lastClock := chip.clock }
  else if chip.rising then
    { chip with
      core := machine.edge chip.valIn chip.core
      edges := chip.edges + 1
      lastClock := chip.clock }
  else
    { chip with lastClock := chip.clock }

/-- What the chip logs when it is held. -/
def holdMessages (machine : Machine μ) (chip : Chip μ) : List Message :=
  if chip.rising then machine.edgeMessages chip.valIn chip.core else []

/-- The machine as a device on the addressed bus. -/
def pins (machine : Machine μ) : Device (Chip μ) where
  setClock := fun high chip => { chip with clock := high }
  setReset := fun high chip => { chip with reset := high }
  setEnable := fun high chip => { chip with enable := high }
  halted := fun chip => machine.halted chip.core
  hold := fun _ chip => machine.hold chip
  holdMessages := machine.holdMessages
  busOp := fun chip => machine.busOp chip.core
  addr := fun chip => machine.addr chip.core
  valOut := fun chip => machine.valOut chip.core
  setValIn := fun value chip => { chip with valIn := value }

end Machine

end TapeBench.Addressed
