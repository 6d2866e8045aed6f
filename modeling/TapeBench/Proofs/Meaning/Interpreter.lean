import TapeBench.Case
import TapeBench.Proofs.Meaning.Brackets

/-!
# `TapeBench.Proofs.Meaning.Interpreter`: what a program means

The meaning of a source text, one byte after the other, with no regard for how a processor gets
there. Cells hold eight bits and their addresses sixteen, and both wrap around. A bracket that
jumps goes on behind its partner, and halts the program if it has none. The end of the source
halts the program as well. A read past the end of the input gives what the policy says, and
starves the program if the policy gives nothing.

* `step`: what the byte at the current position does.
* `run`: what an execution has come to after some steps.
* `sourceOf`, `start`: the source of a case, and where its execution begins.
-/

set_option autoImplicit false

namespace TapeBench.Meaning

/-- A point in the execution of a source:

- `pos`: position of the byte that is up;
- `ptr`: cell pointer;
- `cells`: the cells;
- `input`: input that was not read yet;
- `output`: output written so far. -/
structure State where
  pos : Nat := 0
  ptr : UInt16 := 0
  cells : UInt16 → UInt8
  input : List UInt8
  output : Bytes := #[]

/-- What an execution has come to:

- `running`: it goes on;
- `halted`: it has halted with some output;
- `starved`: it has read past the end of the input, and no byte stands in. -/
inductive Progress where
  | running (state : State)
  | halted (output : Bytes)
  | starved

namespace State

/-- The cell that the pointer is at. -/
def cell (state : State) : UInt8 :=
  state.cells state.ptr

/-- Writes the current cell. -/
def put (state : State) (value : UInt8) : State :=
  { state with cells := fun addr => if state.ptr = addr then value else state.cells addr }

/-- Goes on with the next byte. -/
def next (state : State) : Progress :=
  .running { state with pos := state.pos + 1 }

/-- Jumps behind a bracket. Without a bracket to jump to, the program halts. -/
def jump (state : State) (partner? : Option Nat) : Progress :=
  match partner? with
  | some pos => .running { state with pos := pos + 1 }
  | none => .halted state.output

/-- Reads a byte of the input into the current cell. -/
def accept (state : State) (policy : Exhaustion) : Progress :=
  match state.input, policy with
  | byte :: rest, _ => ({ state with input := rest }.put byte).next
  | [], .returnByte byte => (state.put byte).next
  | [], .fail => .starved

end State

/-- What the byte at the current position does. A byte that is no instruction does nothing, and
behind the source the execution halts. A jump goes behind the partner of its bracket, and halts if
it has none. -/
def step (source : List UInt8) (policy : Exhaustion) (state : State) : Progress :=
  match source[state.pos]? with
  | none => .halted state.output
  | some byte =>
    if byte = '>'.toUInt8 then { state with ptr := state.ptr + 1 }.next
    else if byte = '<'.toUInt8 then { state with ptr := state.ptr - 1 }.next
    else if byte = '+'.toUInt8 then (state.put (state.cell + 1)).next
    else if byte = '-'.toUInt8 then (state.put (state.cell - 1)).next
    else if byte = '.'.toUInt8 then { state with output := state.output.push state.cell }.next
    else if byte = ','.toUInt8 then state.accept policy
    else if byte = '['.toUInt8 then
      if state.cell = 0 then state.jump (partnerOfOpen? source state.pos) else state.next
    else if byte = ']'.toUInt8 then
      if state.cell = 0 then state.next else state.jump (partnerOfClose? source state.pos)
    else state.next

/-- What an execution has come to after at most `steps` steps. -/
def run (source : List UInt8) (policy : Exhaustion) : (steps : Nat) → State → Progress
  | 0, state => .running state
  | steps + 1, state =>
    match step source policy state with
    | .running next => run source policy steps next
    | .halted output => .halted output
    | .starved => .starved

/-- The source of a program: its bytes in front of the first zero. -/
def sourceOf (program : Bytes) : List UInt8 :=
  program.toList.takeWhile (· ≠ 0)

/-- Where the execution of a case begins: the cells hold the data image and zeros behind it. -/
def start (case : Case) : State where
  cells := fun addr => case.dataImage.getD addr.toNat 0
  input := case.input.toList

end TapeBench.Meaning
