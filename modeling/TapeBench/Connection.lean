import TapeBench.Addressed.Run
import TapeBench.SeparatePin.Run
import TapeBench.Serial.Run

/-!
# `TapeBench.Connection`: a device, however it is connected

* `Connection`: the pins or the link of a device with states of type `σ`.
* `Connection.run`: runs a case over whichever encoding the device has.
-/

set_option autoImplicit false

namespace TapeBench

/-- How a device with states of type `σ` is connected to the bench:

- `addressed`: over the addressed bus;
- `separatePin`: over separate pins;
- `serial`: over the serial link. -/
inductive Connection (σ : Type) where
  | addressed (pins : Addressed.Device σ)
  | separatePin (pins : SeparatePin.Device σ)
  | serial (link : Serial.Link σ)

namespace Connection

variable {σ : Type}

/-- Runs `case` on `device`. -/
def run (connection : Connection σ) (config : Config) (case : Case) (device : σ)
    (journal : Journal) : Run σ :=
  match connection with
  | addressed pins => pins.run config case device journal
  | separatePin pins => pins.run config case device journal
  | serial link => link.run config case device journal

end Connection

end TapeBench
