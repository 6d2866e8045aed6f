/-!
# `TapeBench.Serial.Register`: the packed registers of the serial link

The host writes one input register and reads one output register:

    input    enable[9]   op_done[8]    bus_in[7:0]
    output   halted[11]  state[10:8]   bus_out[7:0]

* `InputRegister` and `OutputRegister`: the registers by field, with `toBits` and `ofBits`.

`ofBits` ignores the bits above the register. `toBits` keeps the three low bits of `state`, so
that a state code never reaches the `halted` bit.
-/

set_option autoImplicit false

namespace TapeBench.Serial

/-- The register that the host drives:

- `enable`: the device may run;
- `opDone`: the host has served the transaction that is being executed;
- `busIn`: value returned for a read. -/
structure InputRegister where
  enable : Bool := false
  opDone : Bool := false
  busIn : UInt8 := 0
  deriving DecidableEq, Inhabited

/-- The register that the device drives:

- `busOut`: byte shown by the device;
- `state`: code of the phase;
- `halted`: the device has stopped. -/
structure OutputRegister where
  busOut : UInt8 := 0
  state : UInt8 := 0
  halted : Bool := false
  deriving DecidableEq, Inhabited

/-- The word in which only bit `position` is set, or zero for a flag that is down. -/
def flagBit (position : UInt16) (flag : Bool) : UInt16 :=
  if flag then 1 <<< position else 0

namespace InputRegister

/-- Packs the register. -/
def toBits (register : InputRegister) : UInt16 :=
  flagBit 9 register.enable ||| flagBit 8 register.opDone ||| register.busIn.toUInt16

/-- Reads a packed register. -/
def ofBits (bits : UInt16) : InputRegister where
  enable := bits &&& 0x200 != 0
  opDone := bits &&& 0x100 != 0
  busIn := bits.toUInt8

end InputRegister

namespace OutputRegister

/-- Packs the register. -/
def toBits (register : OutputRegister) : UInt16 :=
  flagBit 11 register.halted ||| (register.state &&& 7).toUInt16 <<< 8 ||| register.busOut.toUInt16

/-- Reads a packed register. -/
def ofBits (bits : UInt16) : OutputRegister where
  busOut := bits.toUInt8
  state := ((bits &&& 0x700) >>> 8).toUInt8
  halted := bits &&& 0x800 != 0

end OutputRegister

end TapeBench.Serial
