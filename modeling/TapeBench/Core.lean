import TapeBench.Bus
import TapeBench.Instruction
import TapeBench.Journal

/-!
# `TapeBench.Core`: the clocked sequencer

The core of a tape processor holds a program counter, a cell pointer and a stage, and nothing
else. Each stage shows one request on the bus. A stage that follows a read consumes the value that
came back for it on its own edge, one cycle after the request was shown; every other stage ignores
the value on its input.

* `Stage`: the eleven stages; `Stage.text` prints them.
* `Core.request`: the request that a stage shows.
* `Core.edge`: the state after a rising clock edge.
* `Core.edgeMessages`: the log line of the edge that stops the core.

Brackets are matched by walking over the program, one byte at a time, with a count of the brackets
that are open. The walk ends behind the partner, or stops the core at a zero byte, or stops it
when 65535 brackets are open and one more comes.
-/

set_option autoImplicit false

namespace TapeBench

open Bus (Op Request)

/-- Direction of a walk to a matching bracket:

- `forward`: from a `[` to its `]`;
- `backward`: from a `]` to its `[`. -/
inductive Direction where
  | forward
  | backward
  deriving DecidableEq, Inhabited

namespace Direction

/-- The next program address in this direction. Addresses wrap around. -/
def advance (direction : Direction) (pc : UInt16) : UInt16 :=
  match direction with
  | forward => pc + 1
  | backward => pc - 1

/-- The bracket that opens one more level in this direction. -/
def opener : Direction → Instruction
  | forward => .loopOpen
  | backward => .loopClose

/-- The bracket that closes a level in this direction. -/
def closer : Direction → Instruction
  | forward => .loopClose
  | backward => .loopOpen

end Direction

/-- What a loaded cell is wanted for:

- `increment`: the cell grows by one;
- `decrement`: the cell shrinks by one;
- `emit`: the cell is written to the output;
- `loopOpen`: the cell decides whether a loop is skipped;
- `loopClose`: the cell decides whether a loop is repeated. -/
inductive CellUse where
  | increment
  | decrement
  | emit
  | loopOpen
  | loopClose
  deriving DecidableEq, Inhabited

/-- Stages of the sequencer:

- `fetch`: reads the instruction at the program counter;
- `decode`: consumes the instruction;
- `loadCell`: reads the current cell;
- `apply`: consumes the cell;
- `store`: writes the current cell;
- `emit`: writes a byte to the output;
- `readInput`: reads a byte from the input;
- `acceptInput`: consumes the input byte;
- `scan`: reads the program byte under a walk with `depth` open brackets;
- `scanDecode`: consumes the program byte under a walk;
- `halted`: stopped. -/
inductive Stage where
  | fetch
  | decode
  | loadCell (wanted : CellUse)
  | apply (wanted : CellUse)
  | store (value : UInt8)
  | emit (value : UInt8)
  | readInput
  | acceptInput
  | scan (direction : Direction) (depth : UInt16)
  | scanDecode (direction : Direction) (depth : UInt16)
  | halted
  deriving DecidableEq, Inhabited

/-- Name of a use. -/
def CellUse.name : CellUse → String
  | increment => "Increment"
  | decrement => "Decrement"
  | emit => "Emit"
  | loopOpen => "LoopOpen"
  | loopClose => "LoopClose"

/-- Name of a direction. -/
def Direction.name : Direction → String
  | forward => "Forward"
  | backward => "Backward"

/-- Text of a stage, with what it carries in brackets. -/
def Stage.text : Stage → String
  | fetch => "Fetch"
  | decode => "Decode"
  | loadCell wanted => "LoadCell(" ++ wanted.name ++ ")"
  | apply wanted => "Apply(" ++ wanted.name ++ ")"
  | store value => "Store(" ++ toString value.toNat ++ ")"
  | emit value => "Emit(" ++ toString value.toNat ++ ")"
  | readInput => "ReadInput"
  | acceptInput => "AcceptInput"
  | scan direction depth => "Scan(" ++ direction.name ++ "," ++ toString depth.toNat ++ ")"
  | scanDecode direction depth =>
    "ScanDecode(" ++ direction.name ++ "," ++ toString depth.toNat ++ ")"
  | halted => "Halted"

/-- The state of the sequencer:

- `pc`: program counter;
- `ptr`: cell pointer;
- `stage`: stage. -/
structure Core where
  pc : UInt16 := 0
  ptr : UInt16 := 0
  stage : Stage := .fetch
  deriving DecidableEq, Inhabited

namespace Core

/-- The core has stopped. -/
def halted (core : Core) : Bool :=
  match core.stage with
  | .halted => true
  | _ => false

/-- The request that the core shows. -/
def request (core : Core) : Request :=
  match core.stage with
  | .fetch | .scan _ _ => ⟨.readProgram, core.pc, 0⟩
  | .loadCell _ => ⟨.readData, core.ptr, 0⟩
  | .store value => ⟨.writeData, core.ptr, value⟩
  | .emit value => ⟨.writeIo, core.ptr, value⟩
  | .readInput => ⟨.readIo, core.ptr, 0⟩
  | .decode | .apply _ | .acceptInput | .scanDecode _ _ | .halted => .idle

/-- Goes on with the next instruction. -/
def nextInstruction (core : Core) : Core :=
  ⟨core.pc + 1, core.ptr, .fetch⟩

/-- Consumes a program byte as an instruction. Zero stops the core; a byte that is no instruction
is passed over. -/
def decode (core : Core) (byte : UInt8) : Core :=
  match Instruction.ofByte? byte with
  | some .right => nextInstruction { core with ptr := core.ptr + 1 }
  | some .left => nextInstruction { core with ptr := core.ptr - 1 }
  | some .increment => { core with stage := .loadCell .increment }
  | some .decrement => { core with stage := .loadCell .decrement }
  | some .emit => { core with stage := .loadCell .emit }
  | some .accept => { core with stage := .readInput }
  | some .loopOpen => { core with stage := .loadCell .loopOpen }
  | some .loopClose => { core with stage := .loadCell .loopClose }
  -- Every other byte is a comment, but for zero, which ends the program.
  | none => if byte = 0 then { core with stage := .halted } else core.nextInstruction

/-- Sets out for the partner of the bracket at the program counter. -/
def seek (core : Core) (direction : Direction) : Core :=
  ⟨direction.advance core.pc, core.ptr, .scan direction 1⟩

/-- Consumes the current cell. -/
def apply (core : Core) (wanted : CellUse) (cell : UInt8) : Core :=
  match wanted with
  | .increment => { core with stage := .store (cell + 1) }
  | .decrement => { core with stage := .store (cell - 1) }
  | .emit => { core with stage := .emit cell }
  | .loopOpen => if cell = 0 then core.seek .forward else core.nextInstruction
  | .loopClose => if cell = 0 then core.nextInstruction else core.seek .backward

/-- Continues a walk with `depth` open brackets: one byte further, or behind the partner once no
bracket is open. -/
def walk (core : Core) (direction : Direction) (depth : UInt16) : Core :=
  if depth = 0 then
    core.nextInstruction
  else
    ⟨direction.advance core.pc, core.ptr, .scan direction depth⟩

/-- Consumes the program byte under a walk with `depth` open brackets. -/
def scan (core : Core) (direction : Direction) (depth : UInt16) (byte : UInt8) : Core :=
  -- Behind a zero byte there is no program, so the bracket has no partner.
  if byte = 0 then
    { core with stage := .halted }
  else if byte = direction.opener.byte then
    -- One more bracket would wrap the count and pair the jump with a wrong one.
    if depth = 65535 then
      { core with stage := .halted }
    else
      core.walk direction (depth + 1)
  else if byte = direction.closer.byte then
    core.walk direction (depth - 1)
  else
    core.walk direction depth

/-- The core after a rising edge at which its input shows `valIn`. -/
def edge (core : Core) (valIn : UInt8) : Core :=
  match core.stage with
  | .fetch => { core with stage := .decode }
  | .decode => core.decode valIn
  | .loadCell wanted => { core with stage := .apply wanted }
  | .apply wanted => core.apply wanted valIn
  | .store _ | .emit _ => core.nextInstruction
  | .readInput => { core with stage := .acceptInput }
  | .acceptInput => { core with stage := .store valIn }
  | .scan direction depth => { core with stage := .scanDecode direction depth }
  | .scanDecode direction depth => core.scan direction depth valIn
  | .halted => core

/-- The log lines of a rising edge: one, if it stops the core. -/
def edgeMessages (core : Core) (valIn : UInt8) : List Message :=
  let next := core.edge valIn
  if next.halted && !core.halted then [.coreHalted next.pc] else []

/-- A stopped core stays as it is. -/
theorem edge_of_halted {core : Core} (h : core.halted = true) (valIn : UInt8) :
    core.edge valIn = core := by
  obtain ⟨pc, ptr, stage⟩ := core
  cases stage <;> simp_all [halted, edge]

end Core

end TapeBench
