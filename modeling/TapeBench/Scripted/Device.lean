import TapeBench.Addressed.Driver
import TapeBench.SeparatePin.Driver

/-!
# `TapeBench.Scripted.Device`: clocked devices that play back a script

A scripted device shows the rows of a script on its output pins, one row for each edge, whatever
the bench answers. It notes the value on its input pins at each edge.

* `Scripted.Player`: the state of such a device.
* `Scripted.addressed`, `Scripted.separatePin`: the device on the addressed bus and on separate
  pins.

Past the end of the script every output is low. Reset goes back to the first row.
-/

set_option autoImplicit false

namespace TapeBench.Scripted

/-- Outputs of a device on the addressed bus:

- `busOp`: code of the requested operation;
- `addr`: target address;
- `valOut`: outgoing value. -/
structure BusRow where
  busOp : UInt8 := 0
  addr : UInt16 := 0
  valOut : UInt8 := 0
  deriving DecidableEq, Inhabited

/-- State of a device that plays back rows of type `ρ`:

- `rows`: the rows of the script;
- `haltAt`: the position from which on the device reports a halt. Without one it never halts;
- `position`: the row that is shown;
- `clock`: level of the clock line;
- `lastClock`: level of the clock line when the device was held last;
- `reset`: level of the reset line;
- `enable`: level of the enable line;
- `valIn`: level of the input pins;
- `seen`: what was on the input pins at each edge. -/
structure Player (ρ : Type) where
  rows : Array ρ
  haltAt : Option Nat
  position : Nat := 0
  clock : Bool := false
  lastClock : Bool := false
  reset : Bool := false
  enable : Bool := false
  valIn : UInt8 := 0
  seen : Array UInt8 := #[]
  deriving DecidableEq

namespace Player

variable {ρ : Type}

/-- The row that is shown. -/
def row [Inhabited ρ] (player : Player ρ) : ρ :=
  player.rows.getD player.position default

/-- The device after it was held. Reset wins over the clock; an edge needs the enable line. -/
def hold (player : Player ρ) : Player ρ :=
  if player.reset then
    { player with position := 0, lastClock := player.clock }
  else if player.clock && !player.lastClock && player.enable then
    { player with
      seen := player.seen.push player.valIn
      position := player.position + 1
      lastClock := player.clock }
  else
    { player with lastClock := player.clock }

/-- The control pins. -/
def clocked : ClockedDevice (Player ρ) where
  setClock := fun high player => { player with clock := high }
  setReset := fun high player => { player with reset := high }
  setEnable := fun high player => { player with enable := high }
  halted := fun player => player.haltAt.any fun position => position ≤ player.position
  hold := fun _ player => player.hold

end Player

/-- A scripted device on the addressed bus. -/
def addressed : Addressed.Device (Player BusRow) where
  toClockedDevice := Player.clocked
  busOp := fun player => player.row.busOp
  addr := fun player => player.row.addr
  valOut := fun player => player.row.valOut
  setValIn := fun value player => { player with valIn := value }

/-- A scripted device with separate pins. Its load pins lead nowhere. -/
def separatePin : SeparatePin.Device (Player SeparatePin.Sample) where
  toClockedDevice := Player.clocked
  outEnable := fun player => player.row.outEnable
  outVal := fun player => player.row.outVal
  inReading := fun player => player.row.inReading
  setInVal := fun value player => { player with valIn := value }
  setInstrAddr := fun _ player => player
  setInstrIn := fun _ player => player
  setInstrWrite := fun _ player => player

end TapeBench.Scripted
