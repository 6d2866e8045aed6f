import TapeBench.Config
import TapeBench.Peripheral

/-!
# `TapeBench.Case`: conformance cases and their verdicts

A case names a program, the data and the input it starts from, and the exact output it has to
write. A run of a case ends with a verdict: a report, or the fault that ended it.

* `Case`: one conformance case.
* `Case.policy`: which policy for exhausted input applies; the case goes before the bench, and
  the bench before the encoding.
* `Case.stores`: the stores of a fresh run.
* `Report`, `Verdict`, `Case.grade`: what a run that halted is worth.
* `Run`: the outcome of a run, with the device and the journal that it leaves.
-/

set_option autoImplicit false

namespace TapeBench

open Memory (Rom Ram)

/-- One conformance case:

- `name`: name in reports;
- `program`: program image, from address zero on;
- `dataImage`: data image, from address zero on;
- `input`: input stream;
- `expected`: the output that passes, to the byte and in length;
- `onExhausted`: what a read past the end of the input gives, if the case has a say in it. -/
structure Case where
  name : String
  program : Bytes := #[]
  dataImage : Bytes := #[]
  input : Bytes := #[]
  expected : Bytes := #[]
  onExhausted : Option Exhaustion := none
  deriving DecidableEq, Inhabited

/-- What a passing run reports:

- `cycles`: cycles, or clock steps on the serial link, before the halt;
- `output`: output that was written;
- `tally`: transactions that were served. -/
structure Report where
  cycles : Nat
  output : Bytes
  tally : Tally
  deriving DecidableEq, Inhabited

/-- One line about a passing run. -/
def Report.summary (report : Report) : String :=
  toString report.cycles ++ " cycles, " ++ toString report.output.size ++ " output byte(s), "
    ++ toString report.tally.effects ++ " transaction(s)"

/-- How a run ended. -/
abbrev Verdict := Except Fault Report

/-- Outcome of a run on a device with states of type `σ`:

- `verdict`: how the run ended;
- `device`: the device as the run left it;
- `journal`: the journal with the notes of the run added. -/
structure Run (σ : Type) where
  verdict : Verdict
  device : σ
  journal : Journal

namespace Case

/-- The policy for exhausted input: of the case, else of the bench, else of the encoding. -/
def policy (config : Config) (case : Case) (encoding : Exhaustion) : Exhaustion :=
  (case.onExhausted.or config.onExhausted).getD encoding

/-- The stores from which a run over the addressed bus or the serial link starts. The program is
checked before the data image. -/
def stores (config : Config) (case : Case) : Except Fault Peripheral :=
  match Rom.load case.program with
  | .error fault => .error fault
  | .ok program =>
    match Ram.load case.dataImage with
    | .error fault => .error fault
    | .ok data =>
      .ok { program, data, channel := .ofInput case.input (case.policy config .addressed) }

/-- The verdict on a run that halted: it passes if the output is the expected one. -/
def grade (case : Case) (cycles : Nat) (output : Bytes) (tally : Tally) : Verdict :=
  if output = case.expected then
    .ok ⟨cycles, output, tally⟩
  else
    .error (.outputMismatch case.expected output)

/-- Ends a run that halted: the halt closes the trace, and the verdict is logged. -/
def conclude {σ : Type} (case : Case) (cycles : Nat) (output : Bytes) (tally : Tally)
    (device : σ) (journal : Journal) : Run σ :=
  let verdict := case.grade cycles output tally
  let line : Message :=
    match verdict with
    | .ok _ => .passed case.name cycles
    | .error _ => .outputMismatch case.name cycles
  ⟨verdict, device, journal.record [.event (.halted cycles), .message line]⟩

end Case

end TapeBench
