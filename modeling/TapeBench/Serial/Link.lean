import TapeBench.Case

/-!
# `TapeBench.Serial.Link`: the transport to a device behind packed registers

The host never sees a clock edge of the device. It writes the input register, reads the output
register and pulses an external clock line, and each of these calls may fail.

* `Link`: the calls, as functions on the states of the link.
* `Link.call`: the outcome of a call as an action of the bench.
-/

set_option autoImplicit false

namespace TapeBench.Serial

/-- Calls to a device behind the link, whose states have type `σ`. A call that fails may change
the state all the same:

- `setReset`: drives the reset line;
- `setInputs`: writes the input register;
- `getOutputs`: reads the output register;
- `stepClock`: pulses the external clock line once;
- `hold`: waits for some nanoseconds. A link that only passes the time keeps its state;
- `stepMessages`: what the device logs when its clock is pulsed in this state. -/
structure Link (σ : Type) where
  setReset : Bool → σ → Except LinkError Unit × σ
  setInputs : UInt16 → σ → Except LinkError Unit × σ
  getOutputs : σ → Except LinkError UInt16 × σ
  stepClock : σ → Except LinkError Unit × σ
  hold : Nat → σ → σ := fun _ link => link
  stepMessages : σ → List Message := fun _ => []

/-- The outcome of a call as an action of the bench. -/
def Link.call {σ α : Type} (outcome : Except LinkError α × σ) (notes : List Note) : Step σ α :=
  match outcome with
  | (.ok value, link) => ⟨.ok value, link, notes⟩
  | (.error error, link) => ⟨.error (.link error), link, notes⟩

end TapeBench.Serial
