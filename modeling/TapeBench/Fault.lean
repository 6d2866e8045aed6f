import TapeBench.Serial.Phase

/-!
# `TapeBench.Fault`: why a run did not pass

A run ends with a report or with one fault. Faults are causes; their wording is `Fault.message`,
and `Fault.kind` sorts them into the classes that a summary reports.

* `LinkError`: failures of the serial transport.
* `Fault`: every reason for which a run ends without passing.
* `FaultClass`: the classes of faults.
-/

set_option autoImplicit false

namespace TapeBench

/-- Failure of the serial transport:

- `disconnected`: the device stopped answering;
- `transport`: the transport reported an error of its own. -/
inductive LinkError where
  | disconnected
  | transport (text : String)
  deriving DecidableEq

/-- Text of a transport failure. -/
def LinkError.message : LinkError → String
  | disconnected => "serial link disconnected"
  | transport text => "serial link i/o error: " ++ text

/-- The reason for which a run ended without passing:

- `protocolViolation`: the device broke the phase protocol of the serial link;
- `inputExhausted`: input was read after its end, `consumed` bytes in, and no byte stands in for it;
- `outputMismatch`: the collected output differs from the expected one;
- `timeout`: the budget ran out after `cycles` cycles without a halt;
- `zeroCycle`: the device reported a halt before its first cycle;
- `programTooLarge`: a program of `size` bytes does not fit the address space;
- `dataImageTooLarge`: a data image of `size` bytes does not fit the address space;
- `link`: the serial transport failed. -/
inductive Fault where
  | protocolViolation (violation : Serial.Violation)
  | inputExhausted (consumed : Nat)
  | outputMismatch (expected actual : Array UInt8)
  | timeout (cycles : Nat)
  | zeroCycle
  | programTooLarge (size : Nat)
  | dataImageTooLarge (size : Nat)
  | link (error : LinkError)
  deriving DecidableEq

/-- Classes of faults in a report:

- `protocol`: the device left the protocol;
- `input`: the input ended too early;
- `output`: the output differs;
- `timeout`: the budget ran out;
- `setup`: the case or the device was not ready to run;
- `link`: the transport failed. -/
inductive FaultClass where
  | protocol
  | input
  | output
  | timeout
  | setup
  | link
  deriving DecidableEq, Inhabited

/-- Every class. -/
def FaultClass.all : List FaultClass :=
  [.protocol, .input, .output, .timeout, .setup, .link]

/-- Name of the class in reports and stored documents. -/
def FaultClass.name : FaultClass → String
  | protocol => "Protocol"
  | input => "Input"
  | output => "Output"
  | timeout => "Timeout"
  | setup => "Setup"
  | link => "Link"

namespace Fault

/-- The class of a fault. -/
def kind : Fault → FaultClass
  | protocolViolation _ => .protocol
  | inputExhausted _ => .input
  | outputMismatch _ _ => .output
  | timeout _ => .timeout
  | zeroCycle | programTooLarge _ | dataImageTooLarge _ => .setup
  | link _ => .link

/-- Text of a fault. A transport failure is reported in its own words. -/
def message : Fault → String
  | protocolViolation violation => "protocol violation: " ++ violation.message
  | inputExhausted consumed =>
    "read on exhausted input after " ++ toString consumed ++ " byte(s)"
  | outputMismatch expected actual =>
    "output mismatch: expected " ++ Text.byteList expected ++ ", got " ++ Text.byteList actual
  | timeout cycles => "no halt within " ++ toString cycles ++ " cycles"
  | zeroCycle => "dut reported halted before executing a cycle"
  | programTooLarge size =>
    "program image of " ++ toString size ++ " bytes exceeds the address space"
  | dataImageTooLarge size =>
    "data image of " ++ toString size ++ " bytes exceeds the address space"
  | link error => error.message

/-- Text of the cause behind a fault. Only a broken protocol has a cause of its own. -/
def cause? : Fault → Option String
  | protocolViolation violation => some violation.message
  | _ => none

end Fault

end TapeBench
