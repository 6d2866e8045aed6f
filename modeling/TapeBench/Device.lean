import TapeBench.Step

/-!
# `TapeBench.Device`: pins that every clocked device has

A device is described by what its pins do to its state. Setters change the level at a pin and
nothing else; the device looks at its levels, takes edges and settles its outputs while it is held
for some time.

* `ClockedDevice`: the control pins of a device with states of type `σ`.
* `ClockedDevice.settle`: holds a device and takes down what it logs.
* `ClockedDevice.pulse`: one clock pulse.
* `ClockedDevice.powerUp`: the reset sequence that opens every run.
-/

set_option autoImplicit false

namespace TapeBench

/-- Control pins of a clocked device whose states have type `σ`:

- `setClock`: drives the clock line;
- `setReset`: drives the reset line, which is active when high;
- `setEnable`: drives the enable line;
- `halted`: samples the `halted` output;
- `hold`: lets some nanoseconds pass;
- `holdMessages`: what the device logs when it is held in this state. -/
structure ClockedDevice (σ : Type) where
  setClock : Bool → σ → σ
  setReset : Bool → σ → σ
  setEnable : Bool → σ → σ
  halted : σ → Bool
  hold : UInt32 → σ → σ
  holdMessages : σ → List Message := fun _ => []

namespace ClockedDevice

variable {σ : Type}

/-- Holds the device, and takes down what it logs. -/
def settle (pins : ClockedDevice σ) (ns : UInt32) (device : σ) : σ × List Note :=
  let notes := (pins.holdMessages device).map Note.message
  (pins.hold ns device, notes)

/-- One clock pulse: the device is held with a high clock and then with a low one. -/
def pulse (pins : ClockedDevice σ) (ns : UInt32) (device : σ) : σ × List Note :=
  let (device, first) := pins.settle ns (pins.setClock true device)
  let (device, second) := pins.settle ns (pins.setClock false device)
  (device, first ++ second)

/-- Puts the device into its reset state and lets it run: the clock goes low, reset is held for
`windowNs`, and the released and enabled device settles for as long again. -/
def powerUp (pins : ClockedDevice σ) (windowNs : UInt32) (device : σ) : σ × List Note :=
  let (device, first) := pins.settle windowNs (pins.setReset true (pins.setClock false device))
  let (device, second) := pins.settle windowNs (pins.setEnable true (pins.setReset false device))
  (device, first ++ second)

end ClockedDevice

end TapeBench
