import TapeBench.Addressed.Machine
import TapeBench.Core

/-!
# `TapeBench.Addressed.Cpu`: a processor without memory of its own

The reference processor on the addressed bus is the core behind pins: every request of the core
leaves the chip, and every value comes back over the value pins.

* `cpu`: the core as a synchronous machine.
* `Cpu`: states of the processor; `cpu.pins` is the processor as a device.
-/

set_option autoImplicit false

namespace TapeBench.Addressed

/-- The core as a synchronous machine. -/
def cpu : Machine Core where
  start := {}
  busOp := fun core => core.request.op.code
  addr := fun core => core.request.addr
  valOut := fun core => core.request.value
  halted := Core.halted
  edge := fun valIn core => core.edge valIn
  edgeMessages := fun valIn core => core.edgeMessages valIn

/-- State of the processor. -/
abbrev Cpu := Chip Core

end TapeBench.Addressed
