import Mathlib.Data.List.GetD
import TapeBench.Proofs.SeparatePin.Load
import TapeBench.Proofs.SeparatePin.Sampling

/-!
# `TapeBench.Proofs.SeparatePin.Port`: the load pins carry every program exactly

A memory behind the load pins takes in the byte at its pins whenever it is held with a high write
line. So a program arrives exactly if the write line is high for one hold for each byte, with the
byte and its address at the pins, and low for the next hold, before anything at the pins moves.

* `strobe`, `loadCalls`: the calls that carry one byte, and those that carry a program.
* `Device.loadProgram_eq`: these are the calls of a load.
* `Port.heard`: what a memory takes in while some calls are made.
* `Port.heard_loadCalls`: of a load it takes in each byte once, in order and at its own address.
* `Ram.toList_writeAll`: a program in front of what the memory held before.
* `load_port_exact`: all of it, for every device and for the processor.
-/

set_option autoImplicit false

namespace TapeBench

open Memory (Rom Ram)

namespace Memory.Ram

/-- The cell at an index is what is read at that address. -/
theorem getElem_toArray (ram : Ram) {k : Nat} (hk : k < addressSpace)
    (hsize : k < ram.toArray.toList.length) :
    ram.toArray.toList[k] = ram.read (.ofNat k) := by
  have haddr : (UInt16.ofNat k).toNat = k := UInt16.toNat_ofNat_of_lt' hk
  simp only [toArray, read, haddr]
  rfl

/-- A memory has a byte for each address. -/
theorem length_toArray (ram : Ram) : ram.toArray.toList.length = addressSpace := by
  simp [toArray]

/-- Bytes that are written from address zero on stand in front of what the memory held behind them.
The bound keeps the addresses from wrapping onto the first bytes. -/
theorem toList_writeAll (ram : Ram) (bytes : List UInt8) (h : bytes.length ≤ addressSpace) :
    (ram.writeAll 0 bytes).toArray.toList
      = bytes ++ ram.toArray.toList.drop bytes.length := by
  refine List.ext_getElem ?_ ?_
  · rw [length_toArray, List.length_append, List.length_drop, length_toArray]
    omega
  · intro k hk hother
    have hspace : k < addressSpace := length_toArray _ ▸ hk
    have haddr : (UInt16.ofNat k).toNat = k := UInt16.toNat_ofNat_of_lt' hspace
    rw [getElem_toArray _ hspace, read_writeAll _ _ _ _ (by simpa using h), haddr,
      UInt16.toNat_zero, if_pos (Nat.zero_le k), Nat.sub_zero]
    -- An index is either one of the bytes or behind them.
    rcases Nat.lt_or_ge k bytes.length with hbyte | hbehind
    · rw [List.getElem_append_left hbyte, List.getD_eq_getElem _ _ hbyte]
    · rw [List.getElem_append_right hbehind, List.getElem_drop, List.getD_eq_default _ _ hbehind,
        getElem_toArray _ (by omega), Nat.add_sub_cancel' hbehind]

end Memory.Ram

namespace SeparatePin

variable {σ : Type}

/-- The calls that carry one byte over the load pins. -/
def strobe (ns : UInt32) (addr : UInt16) (byte : UInt8) : List PinCall :=
  [.instrAddr addr, .instrIn byte, .instrWrite true, .hold ns, .instrWrite false, .hold ns]

/-- The calls that carry bytes from address `start` on. -/
def strobes (ns : UInt32) (bytes : List UInt8) (start : Nat) : List PinCall :=
  (bytes.zipIdx start).flatMap fun (byte, addr) => strobe ns (.ofNat addr) byte

/-- The calls that carry a program, and leave the load pins at zero. -/
def loadCalls (ns : UInt32) (program : Rom) : List PinCall :=
  strobes ns program.bytes.toList 0 ++ [.instrAddr 0, .instrIn 0]

/-- A first byte is strobed at the first address, and the others follow from the next address on. -/
theorem strobes_cons (ns : UInt32) (byte : UInt8) (rest : List UInt8) (start : Nat) :
    strobes ns (byte :: rest) start
      = strobe ns (.ofNat start) byte ++ strobes ns rest (start + 1) := by
  rw [strobes, List.zipIdx_cons, List.flatMap_cons]
  rfl

/-! ### The calls of a load -/

/-- What `driven` does for a call at the load pins, or for a hold, is what the device does. -/
structure Device.Loads (pins : Device σ) (driven : PinCall → σ → σ) : Prop where
  addr : ∀ addr, driven (.instrAddr addr) = pins.setInstrAddr addr
  value : ∀ value, driven (.instrIn value) = pins.setInstrIn value
  write : ∀ high, driven (.instrWrite high) = pins.setInstrWrite high
  hold : ∀ ns, driven (.hold ns) = pins.hold ns

/-- The calls at the load pins of a device do to it what the load asks for. -/
theorem Device.loads_driven (pins : Device σ) : pins.Loads pins.driven :=
  ⟨fun _ => rfl, fun _ => rfl, fun _ => rfl, fun _ => rfl⟩

/-- With its calls taken down, a device takes down the calls of a load. -/
theorem Device.loads_recorded (pins : Device σ) :
    pins.recorded.Loads fun call => Recorded.drive call (pins.driven call) :=
  ⟨fun _ => rfl, fun _ => rfl, fun _ => rfl, fun _ => rfl⟩

section Loads

variable {pins : Device σ} {driven : PinCall → σ → σ} (hloads : pins.Loads driven)

include hloads

/-- Loading a byte makes the calls of its strobe and no others. -/
theorem Device.loadByte_eq (ns : UInt32) (addr : UInt16) (byte : UInt8) (device : σ) :
    (pins.loadByte ns addr byte device).1 = replay driven (strobe ns addr byte) device := by
  simp only [loadByte, ClockedDevice.settle, replay, strobe, List.foldl_cons, List.foldl_nil,
    hloads.addr, hloads.value, hloads.write, hloads.hold]

/-- Bytes go over the load pins one behind the other, with the calls of one byte complete before
those of the next begin. -/
theorem Device.loadBytes_eq (ns : UInt32) (bytes : List UInt8) (start : Nat) (device : σ)
    (notes : List Note) :
    (pins.loadBytes ns bytes (.ofNat start) device notes).1
      = replay driven (strobes ns bytes start) device := by
  -- Each byte takes the address behind that of the byte before.
  induction bytes generalizing start device notes with
  | nil => rfl
  | cons byte rest ih =>
      have hnext : UInt16.ofNat start + 1 = UInt16.ofNat (start + 1) :=
        (UInt16.ofNat_add start 1).symm
      rw [strobes_cons, replay_append, ← Device.loadByte_eq hloads]
      simp only [loadBytes, hnext]
      exact ih _ _ _

/-- A load makes its calls and nothing else. -/
theorem Device.loadProgram_eq (ns : UInt32) (program : Rom) (device : σ) :
    (pins.loadProgram ns program device).1 = replay driven (loadCalls ns program) device := by
  have hbytes := Device.loadBytes_eq hloads ns program.bytes.toList 0 device []
  rw [loadCalls, replay_append, ← hbytes]
  simp only [loadProgram, replay, List.foldl_cons, List.foldl_nil, hloads.addr, hloads.value]
  rfl

end Loads

/-! ### What arrives -/

/-- Levels at the load pins:

- `addr`: the address;
- `value`: the byte;
- `write`: the write line. -/
structure Port where
  addr : UInt16
  value : UInt8
  write : Bool

namespace Port

/-- The levels behind a call. -/
def driven (port : Port) : PinCall → Port
  | .instrAddr addr => { port with addr }
  | .instrIn value => { port with value }
  | .instrWrite write => { port with write }
  | .clock _ | .reset _ | .enable _ | .hold _ | .valIn _ | .inVal _ => port

/-- What a memory at the load pins takes in while some calls are made: the address and the byte at
each hold with a high write line. -/
def heard (port : Port) : List PinCall → List (UInt16 × UInt8)
  | [] => []
  | .hold _ :: rest =>
    (if port.write then [(port.addr, port.value)] else []) ++ port.heard rest
  | call :: rest => (port.driven call).heard rest

/-- One byte arrives once, and leaves the write line low. -/
theorem heard_strobe (port : Port) (ns : UInt32) (addr : UInt16) (byte : UInt8)
    (rest : List PinCall) :
    port.heard (strobe ns addr byte ++ rest)
      = (addr, byte) :: (⟨addr, byte, false⟩ : Port).heard rest := rfl

/-- A port hears each byte of a program once, at its own address. The two calls behind the last
strobe leave the write line low, so nothing is heard of them. -/
theorem heard_strobes (port : Port) (ns : UInt32) (bytes : List UInt8) (start : Nat) :
    port.heard (strobes ns bytes start ++ [.instrAddr 0, .instrIn 0])
      = (bytes.zipIdx start).map fun (byte, addr) => (.ofNat addr, byte) := by
  induction bytes generalizing port start with
  | nil => rfl
  | cons byte rest ih =>
      rw [strobes_cons, List.append_assoc, heard_strobe, ih]
      rfl

/-- Of a load arrives each byte of the program once, in order, at the address that is its index.
What arrives is read off the calls alone, by whatever listens to the write line. -/
theorem heard_loadCalls (port : Port) (ns : UInt32) (program : Rom) :
    (port.heard (loadCalls ns program)).map (fun (addr, byte) => (byte, addr.toNat))
      = program.bytes.toList.zipIdx := by
  rw [loadCalls, heard_strobes, List.map_map]
  refine (List.map_congr_left ?_).trans (List.map_id _)
  rintro ⟨byte, addr⟩ hmem
  -- No address of a program is too large for sixteen bits.
  have hindex : addr < program.bytes.size := by
    have hlt := (List.mem_zipIdx hmem).2.1
    simpa using hlt
  have haddr : (UInt16.ofNat addr).toNat = addr :=
    UInt16.toNat_ofNat_of_lt' (Nat.lt_of_lt_of_le hindex program.size_le)
  simp only [Function.comp_apply, haddr, id_eq]

end Port

/-- The load pins carry every program exactly. On every device a load makes these calls and no
others: for each byte its address and the byte are driven, the write line is high for one hold and
low for another. So each byte arrives once, in order and at its own address. On a processor whose
clock, reset and write line are low, the program then stands in front of what its program memory
held behind it. Apart from the load pins and the note that the clock was low at the last hold,
nothing else in the processor has changed, so it has taken no edge. -/
theorem load_port_exact (settleNs : UInt32) (program : Rom) :
    (∀ (σ : Type) (pins : Device σ) (recorded : Recorded PinCall σ),
        (pins.recorded.loadProgram settleNs program recorded).1.calls.toList
            = recorded.calls.toList ++ loadCalls settleNs program
          ∧ (pins.recorded.loadProgram settleNs program recorded).1.device
            = (pins.loadProgram settleNs program recorded.device).1)
      ∧ (∀ port : Port,
        (port.heard (loadCalls settleNs program)).map (fun (addr, byte) => (byte, addr.toNat))
          = program.bytes.toList.zipIdx)
      ∧ ∀ cpu : Cpu, cpu.Resting →
        ∃ lastClock memory, Cpu.pins.loadProgram settleNs program cpu
            = ({ cpu with program := memory, lastClock, instrAddr := 0, instrIn := 0 },
                [.message (.programLoaded program.size)])
          ∧ memory.toArray.toList
            = program.bytes.toList ++ cpu.program.toArray.toList.drop program.size := by
  refine ⟨?_, fun port => port.heard_loadCalls settleNs program, ?_⟩
  · intro σ pins recorded
    -- A load is a list of calls that does not depend on the device, so it can be taken down.
    have hcalls : (pins.recorded.loadProgram settleNs program recorded).1
        = recorded.driveAll pins.driven (loadCalls settleNs program) :=
      Device.loadProgram_eq pins.loads_recorded settleNs program recorded
    rw [hcalls, Recorded.driveAll_calls, Recorded.driveAll_device,
      Device.loadProgram_eq pins.loads_driven]
    exact ⟨rfl, rfl⟩
  · intro cpu hresting
    obtain ⟨lastClock, hloaded⟩ := Cpu.loadProgram_pins hresting settleNs program
    refine ⟨lastClock, _, hloaded, ?_⟩
    rw [Ram.toList_writeAll _ _ (by simpa using program.size_le), Array.length_toList]
    rfl

/-- A processor in the middle of a program, which was left with a high clock at its last hold. -/
def interrupted : Cpu where
  core := ⟨7, 3, .apply .emit⟩
  program := Ram.zero.write 5 93
  pending := .value 9
  lastClock := true
  enable := true

/-- The interrupted processor takes two bytes in, and stays where it was. -/
theorem load_port_exact_interrupted :
    interrupted.Resting
      ∧ ∃ lastClock memory,
        Cpu.pins.loadProgram 10 ⟨#[43, 46], by decide⟩ interrupted
          = ({ interrupted with program := memory, lastClock, instrAddr := 0, instrIn := 0 },
              [.message (.programLoaded 2)])
        ∧ memory.toArray.toList = [43, 46] ++ interrupted.program.toArray.toList.drop 2 :=
  ⟨⟨rfl, rfl, rfl⟩, (load_port_exact 10 ⟨#[43, 46], by decide⟩).2.2 interrupted ⟨rfl, rfl, rfl⟩⟩

end SeparatePin

end TapeBench
