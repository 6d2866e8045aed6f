import TapeBench.Cycles

/-!
# `TapeBench.SeparatePin.Driver`: the clock of a device with separate pins

A device with separate pins owns its memories. The bench loads the program over load pins,
collects the bytes that the device emits and feeds it the bytes that it reads.

* `Device`: the pins of such a device.
* `Device.loadProgram`: a program goes over the load pins, one byte after the other.
* `Rig`: a driver, a device and its streams together.
* `Rig.cycle`: one cycle. The pins are sampled at the rising edge, before the device is held, and
  served at the falling edge; an output byte is collected before an input byte is read.
-/

set_option autoImplicit false

namespace TapeBench.SeparatePin

open Bus (Op)
open Memory (Rom)

/-- Pins of a device that owns its memories, whose states have type `σ`:

- `outEnable`: the device emits a byte in this cycle;
- `outVal`: the emitted byte;
- `inReading`: the device takes an input byte in this cycle;
- `setInVal`: drives the input byte;
- `setInstrAddr`: drives the address of the load pins;
- `setInstrIn`: drives the byte of the load pins;
- `setInstrWrite`: drives the write line of the load pins. -/
structure Device (σ : Type) extends ClockedDevice σ where
  outEnable : σ → Bool
  outVal : σ → UInt8
  inReading : σ → Bool
  setInVal : UInt8 → σ → σ
  setInstrAddr : UInt16 → σ → σ
  setInstrIn : UInt8 → σ → σ
  setInstrWrite : Bool → σ → σ

/-- The input and output pins as sampled at a rising edge:

- `outEnable`: a byte is emitted;
- `outVal`: the emitted byte;
- `inReading`: a byte is read. -/
structure Sample where
  outEnable : Bool
  outVal : UInt8
  inReading : Bool
  deriving DecidableEq, Inhabited

/-- State of a driver for separate pins:

- `settleNs`: nanoseconds for which the device is held after each transition;
- `cycles`: full cycles so far;
- `tally`: bytes emitted and read so far. -/
structure Driver where
  settleNs : UInt32 := 0
  cycles : Nat := 0
  tally : Tally := {}
  deriving DecidableEq, Inhabited

/-- A driver with the device it clocks and the streams that serve the device:

- `driver`: the driver;
- `device`: the device;
- `channel`: input and output. -/
structure Rig (σ : Type) where
  driver : Driver
  device : σ
  channel : Channel

namespace Device

variable {σ : Type}

/-- Samples the input and output pins. -/
def sample (pins : Device σ) (device : σ) : Sample :=
  ⟨pins.outEnable device, pins.outVal device, pins.inReading device⟩

/-- Writes one byte over the load pins: address and byte are driven, the write line goes high and
low again, and the device is held after each of the two. -/
def loadByte (pins : Device σ) (settleNs : UInt32) (addr : UInt16) (byte : UInt8) (device : σ) :
    σ × List Note :=
  let device := pins.setInstrWrite true (pins.setInstrIn byte (pins.setInstrAddr addr device))
  let (device, first) := pins.settle settleNs device
  let (device, second) := pins.settle settleNs (pins.setInstrWrite false device)
  (device, first ++ second)

/-- Writes bytes over the load pins from `addr` on. -/
def loadBytes (pins : Device σ) (settleNs : UInt32) :
    (bytes : List UInt8) → (addr : UInt16) → (device : σ) → List Note → σ × List Note
  | [], _, device, notes => (device, notes)
  | byte :: rest, addr, device, notes =>
    let (device, more) := pins.loadByte settleNs addr byte device
    loadBytes pins settleNs rest (addr + 1) device (notes ++ more)

/-- Writes a program over the load pins, each byte at its own address, and leaves the pins at
address zero. -/
def loadProgram (pins : Device σ) (settleNs : UInt32) (program : Rom) (device : σ) :
    σ × List Note :=
  let (device, notes) := pins.loadBytes settleNs program.bytes.toList 0 device []
  (pins.setInstrIn 0 (pins.setInstrAddr 0 device),
    notes ++ [.message (.programLoaded program.size)])

end Device

namespace Rig

variable {σ : Type}

/-- Collects the sampled output byte, if there is one. -/
def collect (sampled : Sample) (rig : Rig σ) : Step (Rig σ) Unit :=
  match rig with
  | ⟨⟨settleNs, cycles, tally⟩, device, channel⟩ =>
    if sampled.outEnable then
      .done () ⟨⟨settleNs, cycles, tally.record .writeIo⟩, device, channel.write sampled.outVal⟩
        [.event (.transaction cycles .writeIo 0 sampled.outVal 0)]
    else
      .done () ⟨⟨settleNs, cycles, tally⟩, device, channel⟩ []

/-- Feeds the next input byte, if the sample asks for one. -/
def feed (pins : Device σ) (sampled : Sample) (rig : Rig σ) : Step (Rig σ) Unit :=
  match rig with
  | ⟨⟨settleNs, cycles, tally⟩, device, channel⟩ =>
    if sampled.inReading then
      -- Announced in front of the read that it serves.
      let announced : List Note :=
        if channel.fallsBack then [.event (.inputFallback cycles)] else []
      match channel.read with
      | ⟨.error fault, channel, notes⟩ =>
        ⟨.error fault, ⟨⟨settleNs, cycles, tally⟩, device, channel⟩, announced ++ notes⟩
      | ⟨.ok byte, channel, notes⟩ =>
        .done () ⟨⟨settleNs, cycles, tally.record .readIo⟩, pins.setInVal byte device, channel⟩
          (announced ++ notes ++ [.event (.transaction cycles .readIo 0 0 byte)])
    else
      .done () ⟨⟨settleNs, cycles, tally⟩, device, channel⟩ []

/-- Drives the clock up, samples the pins and lets the device settle. -/
def rise (pins : Device σ) (rig : Rig σ) : Step (Rig σ) Sample :=
  match rig with
  | ⟨driver, device, channel⟩ =>
    let device := pins.setClock true device
    let sampled := pins.sample device
    let (device, notes) := pins.settle driver.settleNs device
    .done sampled ⟨driver, device, channel⟩ notes

/-- Lets the device settle behind the falling edge and counts the cycle. -/
def finish (pins : Device σ) (rig : Rig σ) : Step (Rig σ) Unit :=
  match rig with
  | ⟨⟨settleNs, cycles, tally⟩, device, channel⟩ =>
    let (device, notes) := pins.settle settleNs device
    .done () ⟨⟨settleNs, cycles + 1, tally⟩, device, channel⟩ notes

/-- Drives the clock down. -/
def lower (pins : Device σ) (rig : Rig σ) : Rig σ :=
  match rig with
  | ⟨driver, device, channel⟩ => ⟨driver, pins.setClock false device, channel⟩

/-- One cycle from a low clock to a low clock. A read that faults leaves the clock low; the output
byte of its cycle was collected, and the cycle does not count. -/
def cycle (pins : Device σ) (rig : Rig σ) : Step (Rig σ) Unit :=
  (rig.rise pins).andThen fun sampled rig =>
    ((rig.lower pins).collect sampled).andThen fun _ rig =>
      (rig.feed pins sampled).andThen fun _ rig => rig.finish pins

end Rig

end TapeBench.SeparatePin
