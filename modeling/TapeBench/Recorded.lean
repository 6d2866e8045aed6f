import TapeBench.Addressed.Driver
import TapeBench.SeparatePin.Driver
import TapeBench.Serial.Link

/-!
# `TapeBench.Recorded`: devices with their calls taken down

Every call that drives a pin or uses the link can be taken down, in order, without changing what
the device does. Calls that only sample a pin are not taken down.

* `PinCall`, `LinkCall`: the calls to the pins and to the link.
* `Recorded`: a state with the calls that led to it.
* `ClockedDevice.recorded`, `Addressed.Device.recorded`, `SeparatePin.Device.recorded`,
  `Serial.Link.recorded`: the pins and the link, with their calls taken down.
-/

set_option autoImplicit false

namespace TapeBench

/-- A call that drives a pin of a clocked device, or lets time pass:

- `clock`: the clock line;
- `reset`: the reset line;
- `enable`: the enable line;
- `hold`: the device is held for some nanoseconds;
- `valIn`: the value of a read on the addressed bus;
- `inVal`: the input byte on separate pins;
- `instrAddr`: the address of the load pins;
- `instrIn`: the byte of the load pins;
- `instrWrite`: the write line of the load pins. -/
inductive PinCall where
  | clock (high : Bool)
  | reset (high : Bool)
  | enable (high : Bool)
  | hold (ns : UInt32)
  | valIn (value : UInt8)
  | inVal (value : UInt8)
  | instrAddr (addr : UInt16)
  | instrIn (value : UInt8)
  | instrWrite (high : Bool)
  deriving DecidableEq

/-- A call to the serial link:

- `reset`: the reset line;
- `inputs`: the input register is written;
- `outputs`: the output register is read;
- `step`: the clock is pulsed;
- `hold`: the host waits for some nanoseconds. -/
inductive LinkCall where
  | reset (high : Bool)
  | inputs (bits : UInt16)
  | outputs
  | step
  | hold (ns : Nat)
  deriving DecidableEq

/-- Text of a call: the pin and its level. -/
def PinCall.text : PinCall → String
  | clock high => "clock=" ++ toString high.toNat
  | reset high => "reset=" ++ toString high.toNat
  | enable high => "enable=" ++ toString high.toNat
  | hold ns => "hold=" ++ toString ns.toNat
  | valIn value => "val_in=" ++ toString value.toNat
  | inVal value => "in_val=" ++ toString value.toNat
  | instrAddr addr => "instr_addr=" ++ toString addr.toNat
  | instrIn value => "instr_in=" ++ toString value.toNat
  | instrWrite high => "instr_write=" ++ toString high.toNat

/-- Text of a call, with the word that is written. -/
def LinkCall.text : LinkCall → String
  | reset high => "reset=" ++ toString high.toNat
  | inputs bits => "inputs=" ++ toString bits.toNat
  | outputs => "outputs"
  | step => "step"
  | hold ns => "hold=" ++ toString ns

/-- A state of type `σ`, with the calls of type `κ` that led to it:

- `device`: the state;
- `calls`: the calls, in order. -/
structure Recorded (κ σ : Type) where
  device : σ
  calls : Array κ := #[]

namespace Recorded

variable {κ σ α : Type}

/-- Makes a call that changes the state. -/
def drive (call : κ) (change : σ → σ) (recorded : Recorded κ σ) : Recorded κ σ :=
  match recorded with
  | ⟨device, calls⟩ => ⟨change device, calls.push call⟩

/-- Makes a call that changes the state and gives a result. -/
def ask (call : κ) (change : σ → α × σ) (recorded : Recorded κ σ) : α × Recorded κ σ :=
  match recorded with
  | ⟨device, calls⟩ =>
    match change device with
    | (result, device) => (result, ⟨device, calls.push call⟩)

/-- Forgets the calls so far. -/
def forget (recorded : Recorded κ σ) : Recorded κ σ :=
  ⟨recorded.device, #[]⟩

end Recorded

/-- The control pins, with their calls taken down. -/
def ClockedDevice.recorded {σ : Type} (pins : ClockedDevice σ) :
    ClockedDevice (Recorded PinCall σ) where
  setClock := fun high => .drive (.clock high) (pins.setClock high)
  setReset := fun high => .drive (.reset high) (pins.setReset high)
  setEnable := fun high => .drive (.enable high) (pins.setEnable high)
  halted := fun recorded => pins.halted recorded.device
  hold := fun ns => .drive (.hold ns) (pins.hold ns)
  holdMessages := fun recorded => pins.holdMessages recorded.device

/-- A device on the addressed bus, with its calls taken down. -/
def Addressed.Device.recorded {σ : Type} (pins : Addressed.Device σ) :
    Addressed.Device (Recorded PinCall σ) where
  toClockedDevice := pins.toClockedDevice.recorded
  busOp := fun recorded => pins.busOp recorded.device
  addr := fun recorded => pins.addr recorded.device
  valOut := fun recorded => pins.valOut recorded.device
  setValIn := fun value => .drive (.valIn value) (pins.setValIn value)

/-- A device with separate pins, with its calls taken down. -/
def SeparatePin.Device.recorded {σ : Type} (pins : SeparatePin.Device σ) :
    SeparatePin.Device (Recorded PinCall σ) where
  toClockedDevice := pins.toClockedDevice.recorded
  outEnable := fun recorded => pins.outEnable recorded.device
  outVal := fun recorded => pins.outVal recorded.device
  inReading := fun recorded => pins.inReading recorded.device
  setInVal := fun value => .drive (.inVal value) (pins.setInVal value)
  setInstrAddr := fun addr => .drive (.instrAddr addr) (pins.setInstrAddr addr)
  setInstrIn := fun value => .drive (.instrIn value) (pins.setInstrIn value)
  setInstrWrite := fun high => .drive (.instrWrite high) (pins.setInstrWrite high)

/-- A link, with its calls taken down. A call is taken down whether it fails or not. -/
def Serial.Link.recorded {σ : Type} (link : Serial.Link σ) :
    Serial.Link (Recorded LinkCall σ) where
  setReset := fun high => Recorded.ask (.reset high) (link.setReset high)
  setInputs := fun bits => Recorded.ask (.inputs bits) (link.setInputs bits)
  getOutputs := Recorded.ask .outputs link.getOutputs
  stepClock := Recorded.ask .step link.stepClock
  hold := fun ns => .drive (.hold ns) (link.hold ns)
  stepMessages := fun recorded => link.stepMessages recorded.device

end TapeBench
