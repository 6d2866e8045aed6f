import TapeBench.Bus

/-!
# `TapeBench.Tally`: transactions counted by operation

* `Tally`: one count for each of the six operations.
* `Tally.record`: counts one more; `get_record` says which count moves.
* `Tally.effects`: the transactions that asked for something.
-/

set_option autoImplicit false

namespace TapeBench

open Bus (Op)

/-- Number of transactions for each operation:

- `noOp`: transactions that asked for nothing;
- `readProgram`: program reads;
- `readData`: data reads;
- `writeData`: data writes;
- `readIo`: input bytes taken;
- `writeIo`: output bytes written. -/
structure Tally where
  noOp : Nat := 0
  readProgram : Nat := 0
  readData : Nat := 0
  writeData : Nat := 0
  readIo : Nat := 0
  writeIo : Nat := 0
  deriving DecidableEq, Inhabited

namespace Tally

/-- Number of transactions for `op`. -/
def get (tally : Tally) : Op → Nat
  | .noOp => tally.noOp
  | .readProgram => tally.readProgram
  | .readData => tally.readData
  | .writeData => tally.writeData
  | .readIo => tally.readIo
  | .writeIo => tally.writeIo

/-- Counts one more transaction for `op`. -/
def record (tally : Tally) : Op → Tally
  | .noOp => { tally with noOp := tally.noOp + 1 }
  | .readProgram => { tally with readProgram := tally.readProgram + 1 }
  | .readData => { tally with readData := tally.readData + 1 }
  | .writeData => { tally with writeData := tally.writeData + 1 }
  | .readIo => { tally with readIo := tally.readIo + 1 }
  | .writeIo => { tally with writeIo := tally.writeIo + 1 }

/-- Number of transactions that asked for something. -/
def effects (tally : Tally) : Nat :=
  Op.active.foldl (fun total op => total + tally.get op) 0

/-- Recording moves the count of the recorded operation only. -/
theorem get_record (tally : Tally) (op other : Op) :
    (tally.record op).get other = if op = other then tally.get other + 1 else tally.get other := by
  cases op <;> cases other <;> rfl

end Tally

end TapeBench
