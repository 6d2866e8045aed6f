import TapeBench.Text.Radix

/-!
# `TapeBench.Serial.Phase`: the phases of a transaction on the serial link

Behind the serial link a transaction takes four phases: operation code, high address byte, low
address byte, execution. Between transactions the link may be idle. A host that polls the device
sees each phase once or many times, so consecutive observations either hold a phase or enter the
next one:

    from \ to     Idle    Opcode  AddressHigh  AddressLow  Execute
    Idle          held    enter
    Opcode                held    enter
    AddressHigh                   held         enter
    AddressLow                                 held        enter
    Execute       enter   enter                            held

* `Phase`: the phases, with `Phase.ofState` and `Phase.state` for the `state` field of the link.
* `Phase.observe`: the table, with an `illegalTransition` for each blank entry.
* `Violation`: the two ways in which a device can break the phase protocol.
-/

set_option autoImplicit false

namespace TapeBench.Serial

/-- Phase of one transaction on the link:

- `idle`: no transaction is under way;
- `opcode`: the device shows the operation code;
- `addressHigh`: the device shows the high byte of the address;
- `addressLow`: the device shows the low byte of the address;
- `execute`: the transaction takes place; the device shows the outgoing value. -/
inductive Phase where
  | idle
  | opcode
  | addressHigh
  | addressLow
  | execute
  deriving DecidableEq, Inhabited

/-- What an observation says about the phase that was observed before it:

- `held`: the same phase was observed again;
- `entered`: a new phase was entered. -/
inductive Transition where
  | held
  | entered
  deriving DecidableEq

/-- How a device can break the phase protocol:

- `illegalTransition`: the phase `next` was observed after `phase` and cannot follow it;
- `unknownState`: the `state` field holds a code that stands for no phase. -/
inductive Violation where
  | illegalTransition (phase next : Phase)
  | unknownState (code : UInt8)
  deriving DecidableEq

namespace Phase

/-- Every phase, in the order of the codes. -/
def all : List Phase :=
  [idle, opcode, addressHigh, addressLow, execute]

/-- The code of the phase in the three-bit `state` field. -/
def state : Phase → UInt8
  | idle => 0
  | opcode => 1
  | addressHigh => 2
  | addressLow => 3
  | execute => 4

/-- The phase that a `state` code stands for. -/
def ofState (code : UInt8) : Except Violation Phase :=
  match code with
  | 0 => .ok idle
  | 1 => .ok opcode
  | 2 => .ok addressHigh
  | 3 => .ok addressLow
  | 4 => .ok execute
  | _ => .error (.unknownState code)

/-- Name of the phase in fault texts and stored documents. -/
def name : Phase → String
  | idle => "Idle"
  | opcode => "Opcode"
  | addressHigh => "AddressHigh"
  | addressLow => "AddressLow"
  | execute => "Execute"

/-- The phase `next` may be entered from `phase`. -/
def enters : (phase next : Phase) → Bool
  | idle, opcode => true
  | opcode, addressHigh => true
  | addressHigh, addressLow => true
  | addressLow, execute => true
  | execute, opcode => true
  | execute, idle => true
  | _, _ => false

/-- Observes `next` after `phase`, by the table at the head of this module. -/
def observe (phase next : Phase) : Except Violation Transition :=
  if phase = next then
    .ok .held
  else if phase.enters next then
    .ok .entered
  else
    .error (.illegalTransition phase next)

/-- Every phase is read back from its own code. -/
@[simp] theorem ofState_state (phase : Phase) : ofState phase.state = .ok phase := by
  cases phase <;> rfl

end Phase

/-- Text of a violation. A state code is printed in base 2 with at least three digits. -/
def Violation.message : Violation → String
  | illegalTransition phase next =>
    "illegal phase transition " ++ phase.name ++ " -> " ++ next.name
  | unknownState code => "unknown link state code " ++ Text.binary 3 code.toNat

end TapeBench.Serial
