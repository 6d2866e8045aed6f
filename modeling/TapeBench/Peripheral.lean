import TapeBench.Channel
import TapeBench.Memory.Ram
import TapeBench.Tally

/-!
# `TapeBench.Peripheral`: the environment behind the bus

The peripheral owns the program image, the data memory and the channel of one run, and serves one
request at a time.

* `Peripheral.resolve`: the single effect that a request asks for, and the value that the
  processor sees.

Writes and requests for nothing give zero. A request is counted and logged when it was served; a
read past the end of the input that nothing stands in for is the only way to fail, and it leaves
the peripheral as it was.
-/

set_option autoImplicit false

namespace TapeBench

open Bus (Op Request)
open Memory (Rom Ram)

/-- The stores of one run and the count of what they served:

- `program`: program image;
- `data`: data memory;
- `channel`: input and output;
- `tally`: requests served so far. -/
structure Peripheral where
  program : Rom
  data : Ram
  channel : Channel
  tally : Tally := {}
  deriving DecidableEq

namespace Peripheral

/-- What a served request gives: the value for the processor, the stores after it with the
request counted, and a log line behind the notes of the stores. -/
def served (request : Request) (value : UInt8) (program : Rom) (data : Ram) (channel : Channel)
    (tally : Tally) (notes : List Note) : Step Peripheral UInt8 :=
  .done value ⟨program, data, channel, tally.record request.op⟩
    (notes ++ [.message (.served request.op request.addr request.value value)])

/-- Performs the effect that `request` asks for. -/
def resolve (bus : Peripheral) (request : Request) : Step Peripheral UInt8 :=
  match bus with
  | ⟨program, data, channel, tally⟩ =>
    match request.op with
    | .noOp => served request 0 program data channel tally []
    | .readProgram =>
      served request (program.read request.addr) program data channel tally []
    | .readData => served request (data.read request.addr) program data channel tally []
    | .writeData =>
      served request 0 program (data.write request.addr request.value) channel tally []
    | .readIo =>
      match channel.read with
      | ⟨.ok value, channel, notes⟩ => served request value program data channel tally notes
      -- A read that fails is not counted.
      | ⟨.error fault, channel, notes⟩ => ⟨.error fault, ⟨program, data, channel, tally⟩, notes⟩
    | .writeIo => served request 0 program data (channel.write request.value) tally []

end Peripheral

end TapeBench
