import TapeBench.Case
import TapeBench.Document.Value

/-!
# `TapeBench.Document.Form`: stored forms

How configurations, cases and names are stored as values, and how they are read back.

* A plain name is a text. A record whose only field has that name and no value is read as the
  same name.
* A policy is the name `Fail`, or a record with the only field `ReturnByte`.
* A configuration and a case are records. Fields that they do not know are ignored; a policy may
  be left out; every other field has to be there.
* A waiting time is a record of seconds and nanoseconds with no other field. Nanoseconds beyond a
  second count as seconds, as long as the seconds stay below 2 to the 64.

Each form is a pair of functions, `toValue` and `ofValue?`; a policy, an operation, a phase and a
class of faults are read back from what is written.
-/

set_option autoImplicit false

namespace TapeBench.Document

/-- Reads one of several plain names. -/
def nameOf? {α : Type} (all : List α) (name : α → String) : Value → Option α
  | .text text => all.find? fun item => name item = text
  | .record [(text, .null)] => all.find? fun item => name item = text
  | _ => none

/-- Reads an optional field: missing and empty fields give nothing. -/
def optional? {α : Type} (read : Value → Option α) (name : String) (value : Value) :
    Option (Option α) :=
  match value.field? name with
  | none | some .null => some none
  | some content => (read content).map some

/-- Reads a field that has to be there. -/
def required? {α : Type} (read : Value → Option α) (name : String) (value : Value) : Option α :=
  (value.field? name).bind read

/-! ### Names -/

/-- Reads an operation. -/
def op? : Value → Option Bus.Op :=
  nameOf? Bus.Op.all Bus.Op.name

/-- Reads a phase of the serial link. -/
def phase? : Value → Option Serial.Phase :=
  nameOf? Serial.Phase.all Serial.Phase.name

/-- Reads a class of faults. -/
def faultClass? : Value → Option FaultClass :=
  nameOf? FaultClass.all FaultClass.name

end TapeBench.Document

namespace TapeBench

open Document (Value)

/-- The stored form of an operation. -/
def Bus.Op.toValue (op : Bus.Op) : Value :=
  .text op.name

/-- The stored form of a phase. -/
def Serial.Phase.toValue (phase : Serial.Phase) : Value :=
  .text phase.name

/-- The stored form of a class of faults. -/
def FaultClass.toValue (kind : FaultClass) : Value :=
  .text kind.name

/-- An operation is read back from its stored form. -/
@[simp] theorem Bus.Op.op?_toValue (op : Bus.Op) : Document.op? op.toValue = some op := by
  cases op <;> decide

/-- A phase is read back from its stored form. -/
@[simp] theorem Serial.Phase.phase?_toValue (phase : Serial.Phase) :
    Document.phase? phase.toValue = some phase := by
  cases phase <;> decide

/-- A class of faults is read back from its stored form. -/
@[simp] theorem FaultClass.faultClass?_toValue (kind : FaultClass) :
    Document.faultClass? kind.toValue = some kind := by
  cases kind <;> decide

/-! ### Policies -/

/-- The stored form of a policy. -/
def Exhaustion.toValue : Exhaustion → Value
  | .fail => .text "Fail"
  | .returnByte byte => .record [("ReturnByte", .ofByte byte)]

/-- Reads a policy. -/
def Exhaustion.ofValue? : Value → Option Exhaustion
  | .text "Fail" => some .fail
  | .record [("Fail", .null)] => some .fail
  | .record [("ReturnByte", content)] => content.byte?.map .returnByte
  | _ => none

/-- A policy is read back from its stored form. -/
@[simp] theorem Exhaustion.ofValue?_toValue (policy : Exhaustion) :
    Exhaustion.ofValue? policy.toValue = some policy := by
  cases policy with
  | fail => rfl
  | returnByte byte =>
    have inside : byte.toNat < UInt8.size := byte.toNat_lt
    simp [Exhaustion.toValue, Exhaustion.ofValue?, Value.ofByte, Value.ofNat, Value.byte?,
      Value.natBelow?, inside]

/-- The stored form of a policy that may be left out. -/
def Exhaustion.optionToValue (policy : Option Exhaustion) : Value :=
  (policy.map Exhaustion.toValue).getD .null

/-! ### Configurations -/

namespace Config

/-- Nanoseconds in a second. -/
def nsPerSecond : Nat := 1000000000

/-- The stored form of a waiting time in nanoseconds. -/
def holdToValue (ns : Nat) : Value :=
  .record [("secs", .ofNat (ns / nsPerSecond)), ("nanos", .ofNat (ns % nsPerSecond))]

/-- Reads a waiting time in nanoseconds. -/
def holdOfValue? (value : Value) : Option Nat := do
  let .record fields := value | none
  guard (fields.all fun field => field.1 = "secs" || field.1 = "nanos")
  let secs ← Document.required? (·.natBelow? UInt64.size) "secs" value
  let nanos ← Document.required? (·.natBelow? UInt32.size) "nanos" value
  guard (secs + nanos / nsPerSecond < UInt64.size)
  return secs * nsPerSecond + nanos

/-- The stored form of a configuration. -/
def toValue (config : Config) : Value :=
  .record [
    ("cycle_budget", .ofNat config.cycleBudget.toNat),
    ("settle_ns", .ofNat config.settleNs.toNat),
    ("reset_window_ns", .ofNat config.resetWindowNs.toNat),
    ("serial_reset_hold", holdToValue config.serialResetHoldNs),
    ("input_exhaustion", Exhaustion.optionToValue config.onExhausted)]

/-- Reads a configuration. -/
def ofValue? (value : Value) : Option Config := do
  let cycleBudget ← Document.required? (·.natBelow? UInt64.size) "cycle_budget" value
  let settleNs ← Document.required? (·.natBelow? UInt32.size) "settle_ns" value
  let resetWindowNs ← Document.required? (·.natBelow? UInt32.size) "reset_window_ns" value
  let serialResetHoldNs ← Document.required? holdOfValue? "serial_reset_hold" value
  let onExhausted ← Document.optional? Exhaustion.ofValue? "input_exhaustion" value
  return {
    cycleBudget := .ofNat cycleBudget
    settleNs := .ofNat settleNs
    resetWindowNs := .ofNat resetWindowNs
    serialResetHoldNs
    onExhausted }

end Config

/-! ### Cases -/

namespace Case

/-- The stored form of a case. -/
def toValue (case : Case) : Value :=
  .record [
    ("name", .text case.name),
    ("program", .ofBytes case.program),
    ("data_image", .ofBytes case.dataImage),
    ("input", .ofBytes case.input),
    ("expected_output", .ofBytes case.expected),
    ("input_exhaustion", Exhaustion.optionToValue case.onExhausted)]

/-- Reads a case. -/
def ofValue? (value : Value) : Option Case := do
  let name ← Document.required? Value.text? "name" value
  let program ← Document.required? Value.bytes? "program" value
  let dataImage ← Document.required? Value.bytes? "data_image" value
  let input ← Document.required? Value.bytes? "input" value
  let expected ← Document.required? Value.bytes? "expected_output" value
  let onExhausted ← Document.optional? Exhaustion.ofValue? "input_exhaustion" value
  return { name, program, dataImage, input, expected, onExhausted }

end Case

end TapeBench
