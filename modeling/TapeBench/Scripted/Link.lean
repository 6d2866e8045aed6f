import TapeBench.Serial.Link

/-!
# `TapeBench.Scripted.Link`: a serial link that plays back a script

A scripted link answers the reads of the output register with the words of a script, and lets
chosen calls fail.

* `Scripted.Tape`: the state of such a link.
* `Scripted.link`: the link.

A read that fails takes no word. Behind the last word the link repeats one word for ever, or
counts as disconnected.
-/

set_option autoImplicit false

namespace TapeBench.Scripted

/-- The calls that can fail:

- `reset`: the reset line is driven;
- `inputs`: the input register is written;
- `outputs`: the output register is read;
- `step`: the clock is pulsed. -/
inductive CallKind where
  | reset
  | inputs
  | outputs
  | step
  deriving DecidableEq, Inhabited

/-- A call that fails: the one with the given index, from zero, among the calls of its kind:

- `kind`: kind of the call;
- `index`: number of calls of that kind before it;
- `error`: how the call fails. -/
structure Failure where
  kind : CallKind
  index : Nat
  error : LinkError
  deriving DecidableEq

/-- Number of calls by kind:

- `reset`: calls that drive the reset line;
- `inputs`: calls that write the input register;
- `outputs`: calls that read the output register;
- `step`: calls that pulse the clock. -/
structure Made where
  reset : Nat := 0
  inputs : Nat := 0
  outputs : Nat := 0
  step : Nat := 0
  deriving DecidableEq, Inhabited

namespace Made

/-- Number of calls of one kind. -/
def get (made : Made) : CallKind → Nat
  | .reset => made.reset
  | .inputs => made.inputs
  | .outputs => made.outputs
  | .step => made.step

/-- Counts one more call. -/
def count (made : Made) : CallKind → Made
  | .reset => { made with reset := made.reset + 1 }
  | .inputs => { made with inputs := made.inputs + 1 }
  | .outputs => { made with outputs := made.outputs + 1 }
  | .step => { made with step := made.step + 1 }

end Made

/-- State of a scripted link:

- `outputs`: words that were not read yet;
- `afterwards`: the word behind the last one;
- `failures`: the calls that fail;
- `made`: calls so far. -/
structure Tape where
  outputs : List UInt16 := []
  afterwards : Option UInt16 := none
  failures : List Failure := []
  made : Made := {}
  deriving DecidableEq

namespace Tape

/-- Makes a call, which the script may let fail. -/
def attempt (kind : CallKind) (tape : Tape) : Except LinkError Unit × Tape :=
  let index := tape.made.get kind
  let tape := { tape with made := tape.made.count kind }
  match tape.failures.find? fun failure => failure.kind = kind && failure.index = index with
  | some failure => (.error failure.error, tape)
  | none => (.ok (), tape)

/-- Reads the next word. -/
def next (tape : Tape) : Except LinkError UInt16 × Tape :=
  match tape.outputs, tape.afterwards with
  | bits :: rest, _ => (.ok bits, { tape with outputs := rest })
  | [], some bits => (.ok bits, tape)
  | [], none => (.error .disconnected, tape)

end Tape

/-- A scripted link. -/
def link : Serial.Link Tape where
  setReset := fun _ tape => tape.attempt .reset
  setInputs := fun _ tape => tape.attempt .inputs
  getOutputs := fun tape =>
    match tape.attempt .outputs with
    | (.error error, tape) => (.error error, tape)
    | (.ok (), tape) => tape.next
  stepClock := fun tape => tape.attempt .step

end TapeBench.Scripted
