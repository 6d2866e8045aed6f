/-!
# `TapeBench.Bus`: operations and requests

Once per cycle a processor asks its environment for at most one operation. This module holds the
six operations, their three-bit codes on the `bus_op` pins, and the request that a driver samples.

* `Op`: the operations, with `Op.ofCode` and `Op.code` for the pins.
* `Request`: an operation with the address and the outgoing value that go with it.

Every code outside the five active ones asks for nothing, so `Op.ofCode` is total, and
`ofCode_code` says that no operation is lost on the pins.
-/

set_option autoImplicit false

namespace TapeBench.Bus

/-- What a processor asks of its environment for one transaction:

- `noOp`: nothing is asked for;
- `readProgram`: read one program byte;
- `readData`: read one data cell;
- `writeData`: write one data cell;
- `readIo`: take one byte from the input stream;
- `writeIo`: append one byte to the output stream. -/
inductive Op where
  | noOp
  | readProgram
  | readData
  | writeData
  | readIo
  | writeIo
  deriving DecidableEq, Inhabited

namespace Op

/-- The operations that ask for something, in the order of their codes. -/
def active : List Op :=
  [readProgram, readData, writeData, readIo, writeIo]

/-- Every operation, in the order of the counts that are kept for them. -/
def all : List Op :=
  noOp :: active

/-- The three-bit code on the `bus_op` pins. -/
def code : Op → UInt8
  | noOp => 0
  | readProgram => 2
  | readData => 4
  | writeData => 5
  | readIo => 6
  | writeIo => 7

/-- The operation that a code stands for. A code that is not assigned asks for nothing. -/
def ofCode (code : UInt8) : Op :=
  match code with
  | 2 => readProgram
  | 4 => readData
  | 5 => writeData
  | 6 => readIo
  | 7 => writeIo
  | _ => noOp

/-- The operation expects a value back on the input pins. -/
def isRead : Op → Bool
  | readProgram | readData | readIo => true
  | noOp | writeData | writeIo => false

/-- The operation carries a value out. -/
def isWrite : Op → Bool
  | writeData | writeIo => true
  | noOp | readProgram | readData | readIo => false

/-- Position of the operation in a table with one entry for each of the six. -/
def index : Op → Nat
  | noOp => 0
  | readProgram => 1
  | readData => 2
  | writeData => 3
  | readIo => 4
  | writeIo => 5

/-- Name of the operation in log lines and stored documents. -/
def name : Op → String
  | noOp => "None"
  | readProgram => "ReadProgram"
  | readData => "ReadData"
  | writeData => "WriteData"
  | readIo => "ReadIo"
  | writeIo => "WriteIo"

/-- Every operation survives the way over the pins. -/
@[simp] theorem ofCode_code (op : Op) : ofCode op.code = op := by
  cases op <;> rfl

end Op

/-- One request as the pins show it before the edge that consumes it:

- `op`: requested operation;
- `addr`: target address;
- `value`: outgoing value, which only writes use. -/
structure Request where
  op : Op
  addr : UInt16
  value : UInt8
  deriving DecidableEq, Inhabited

/-- The request of a cycle that asks for nothing. -/
def Request.idle : Request :=
  ⟨.noOp, 0, 0⟩

end TapeBench.Bus
