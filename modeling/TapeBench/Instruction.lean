/-!
# `TapeBench.Instruction`: the eight instructions

A program is a sequence of bytes. Eight of them are instructions of the tape machine, the byte
zero ends the program, and every other byte is a comment. `Instruction.ofByte?` reads a byte;
`ofByte?_byte` says that it recognises every instruction by the byte that spells it.
-/

set_option autoImplicit false

namespace TapeBench

/-- An instruction of the tape machine:

- `right`, `>`: the cell pointer moves one cell up;
- `left`, `<`: the cell pointer moves one cell down;
- `increment`, `+`: the current cell grows by one;
- `decrement`, `-`: the current cell shrinks by one;
- `emit`, `.`: the current cell is written to the output;
- `accept`, `,`: the current cell takes the next input byte;
- `loopOpen`, `[`: on a zero cell, the program goes on after the matching `]`;
- `loopClose`, `]`: on a nonzero cell, the program goes on after the matching `[`. -/
inductive Instruction where
  | right
  | left
  | increment
  | decrement
  | emit
  | accept
  | loopOpen
  | loopClose
  deriving DecidableEq, Inhabited

namespace Instruction

/-- The byte that spells the instruction. -/
def byte : Instruction → UInt8
  | right => 62
  | left => 60
  | increment => 43
  | decrement => 45
  | emit => 46
  | accept => 44
  | loopOpen => 91
  | loopClose => 93

/-- The instruction that a program byte spells, if it spells one. -/
def ofByte? (byte : UInt8) : Option Instruction :=
  match byte with
  | 62 => some right
  | 60 => some left
  | 43 => some increment
  | 45 => some decrement
  | 46 => some emit
  | 44 => some accept
  | 91 => some loopOpen
  | 93 => some loopClose
  | _ => none

/-- Every instruction is read back from its own byte. -/
@[simp] theorem ofByte?_byte (instruction : Instruction) :
    ofByte? instruction.byte = some instruction := by
  cases instruction <;> rfl

end Instruction

end TapeBench
