import TapeBench.Cycles

/-!
# `TapeBench.Addressed.Driver`: the clock of the addressed bus

A cycle goes from a low clock over a high clock back to a low clock. The rising half drives the
clock up and samples the request before the device is held, so that the request which the device
settled on in the cycle before is never lost. The falling half drives the clock down and serves
the sampled request; the value of a read is on the pins before the device is held again.

* `Device`: the pins of a device on the addressed bus.
* `Rig`: a driver, a device and its environment together.
* `Rig.advance`: one half of a cycle; `Rig.cycle`: the rest of the cycle up to a low clock.
-/

set_option autoImplicit false

namespace TapeBench.Addressed

open Bus (Op Request)

/-- Pins of a device with one multiplexed bus, whose states have type `σ`:

- `busOp`: code of the requested operation;
- `addr`: target address;
- `valOut`: outgoing value;
- `setValIn`: drives the value that came back for a read. -/
structure Device (σ : Type) extends ClockedDevice σ where
  busOp : σ → UInt8
  addr : σ → UInt16
  valOut : σ → UInt8
  setValIn : UInt8 → σ → σ

/-- The request that the pins show. A code that is not assigned asks for nothing. -/
def Device.request {σ : Type} (pins : Device σ) (device : σ) : Request :=
  ⟨.ofCode (pins.busOp device), pins.addr device, pins.valOut device⟩

/-- Level of the clock, with the request sampled at the last rising edge:

- `low`: the clock is low and nothing is pending;
- `high`: the clock is high and `sampled` waits to be served. -/
inductive ClockPhase where
  | low
  | high (sampled : Request)
  deriving DecidableEq, Inhabited

/-- State of a clock driver:

- `phase`: level of the clock;
- `settleNs`: nanoseconds for which the device is held after each transition;
- `cycles`: full cycles so far. -/
structure Driver where
  phase : ClockPhase := .low
  settleNs : UInt32 := 0
  cycles : Nat := 0
  deriving DecidableEq, Inhabited

/-- A driver with the device it clocks and the environment that serves the device:

- `driver`: the clock driver;
- `device`: the device;
- `bus`: the environment. -/
structure Rig (σ : Type) where
  driver : Driver
  device : σ
  bus : Peripheral

/-- The trace entries of a transaction that was served in `cycle`. -/
def servedEvents (cycle : Nat) (request : Request) (valueIn : UInt8) (fellBack : Bool) :
    List Note :=
  let transaction : Note :=
    .event (.transaction cycle request.op request.addr request.value valueIn)
  if fellBack then [.event (.inputFallback cycle), transaction] else [transaction]

/-- Serves a sampled request. Only reads drive the value pins, and a request for nothing reaches
neither the environment nor the trace. -/
def commit {σ : Type} (pins : Device σ) (cycle : Nat) (request : Request) (device : σ)
    (bus : Peripheral) : Step (σ × Peripheral) Unit :=
  if request.op = .noOp then
    .done () (device, bus) []
  else
    -- Looked up in front of the read, which may take the last byte of the input.
    let fellBack := request.op = .readIo && bus.channel.fallsBack
    match bus.resolve request with
    | ⟨.error fault, bus, notes⟩ => ⟨.error fault, (device, bus), notes⟩
    | ⟨.ok value, bus, notes⟩ =>
      -- Only a read is answered on the pins. For anything else they keep the last value.
      let device := if request.op.isRead then pins.setValIn value device else device
      .done () (device, bus) (notes ++ servedEvents cycle request value fellBack)

namespace Rig

variable {σ : Type}

/-- The rising half of a cycle. -/
def rise (pins : Device σ) (rig : Rig σ) : Step (Rig σ) ClockPhase :=
  match rig with
  | ⟨⟨_, settleNs, cycles⟩, device, bus⟩ =>
    let device := pins.setClock true device
    let phase := .high (pins.request device)
    let (device, notes) := pins.settle settleNs device
    .done phase ⟨⟨phase, settleNs, cycles⟩, device, bus⟩ notes

/-- The falling half of a cycle, which serves `request`. After a fault the clock stays low, the
request stays pending and the cycle does not count. -/
def fall (pins : Device σ) (request : Request) (rig : Rig σ) : Step (Rig σ) ClockPhase :=
  match rig with
  | ⟨⟨_, settleNs, cycles⟩, device, bus⟩ =>
    match commit pins cycles request (pins.setClock false device) bus with
    | ⟨.error fault, (device, bus), notes⟩ =>
      ⟨.error fault, ⟨⟨.high request, settleNs, cycles⟩, device, bus⟩, notes⟩
    | ⟨.ok (), (device, bus), notes⟩ =>
      let (device, more) := pins.settle settleNs device
      .done .low ⟨⟨.low, settleNs, cycles + 1⟩, device, bus⟩ (notes ++ more)

/-- One half of a cycle. Gives the level that the clock has reached. -/
def advance (pins : Device σ) (rig : Rig σ) : Step (Rig σ) ClockPhase :=
  match rig.driver.phase with
  | .low => rig.rise pins
  | .high request => rig.fall pins request

/-- Advances until the clock is low: both halves of a cycle, or the second half of one that was
begun. -/
def cycle (pins : Device σ) (rig : Rig σ) : Step (Rig σ) Unit :=
  (rig.advance pins).andThen fun reached rig =>
    match reached with
    | .low => .done () rig []
    | .high _ => (rig.advance pins).andThen fun _ rig => .done () rig []

end Rig

end TapeBench.Addressed
