import TapeBench.Proofs.Cycles
import TapeBench.SeparatePin.Cpu
import TapeBench.SeparatePin.Run

/-!
# `TapeBench.Proofs.SeparatePin.Load`: a program on its way into the chip

The load pins write one byte after the other into the program memory of the processor, each at the
next address. Nothing else in the chip moves meanwhile, because the clock and the reset line are
low. The reset sequence that follows keeps the program and clears the rest.

* `Ram.writeAll`: bytes at consecutive addresses; `Ram.read_writeAll` says what is read afterwards.
* `Cpu.loadProgram_pins`: the chip after its program was loaded.
* `Cpu.powerUp_pins`: the chip after the reset sequence.
* `Cpu.read_program`: a chip whose program memory was zero reads as the image.
* `Cpu.run_pins`: where the first cycle of a run starts.
-/

set_option autoImplicit false

namespace TapeBench

open Memory (Rom Ram)

namespace Memory.Ram

/-- Writes bytes at consecutive addresses, from `addr` on. -/
def writeAll (ram : Ram) (addr : UInt16) : List UInt8 → Ram
  | [] => ram
  | byte :: rest => (ram.write addr byte).writeAll (addr + 1) rest

/-- An address is either one of those that were written, and reads as its byte, or it reads as
before. The bytes must end where the address space ends. -/
theorem read_writeAll (bytes : List UInt8) (ram : Ram) (addr other : UInt16)
    (h : addr.toNat + bytes.length ≤ addressSpace) :
    (ram.writeAll addr bytes).read other
      = if addr.toNat ≤ other.toNat then
          bytes.getD (other.toNat - addr.toNat) (ram.read other)
        else
          ram.read other := by
  -- Induction on the bytes. `hrest` is what the bytes behind the first one leave; with it the
  -- address in question is in front of `addr`, at `addr`, or behind it.
  induction bytes generalizing ram addr with
  | nil => simp [writeAll]
  | cons byte rest ih =>
      rw [List.length_cons] at h
      have hrest : ((ram.write addr byte).writeAll (addr + 1) rest).read other
          = if addr.toNat + 1 ≤ other.toNat then
              rest.getD (other.toNat - (addr.toNat + 1)) ((ram.write addr byte).read other)
            else
              (ram.write addr byte).read other := by
        cases rest with
        | nil => simp [writeAll]
        | cons next rest =>
            -- Another byte follows, so the next address has not wrapped around.
            have hnext : (addr + 1).toNat = addr.toNat + 1 := by
              rw [List.length_cons, addressSpace] at h
              rw [UInt16.toNat_add]
              exact Nat.mod_eq_of_lt (by simp only [UInt16.toNat_one]; omega)
            rw [ih _ _ (by rw [hnext]; omega), hnext]
      rw [writeAll, hrest, read_write]
      rcases Nat.lt_trichotomy addr.toNat other.toNat with hlt | heq | hgt
      · have hne : addr ≠ other := by
          intro heq
          simp [heq] at hlt
        have hoffset : other.toNat - addr.toNat = other.toNat - (addr.toNat + 1) + 1 := by omega
        rw [if_pos (by omega), if_neg hne, if_pos (by omega), hoffset, List.getD_cons_succ]
      · obtain rfl := UInt16.toNat_inj.mp heq
        rw [if_neg (by omega), if_pos rfl, if_pos (by omega), Nat.sub_self, List.getD_cons_zero]
      · have hne : addr ≠ other := by
          intro heq
          simp [heq] at hgt
        rw [if_neg (by omega), if_neg hne, if_neg (by omega)]

end Memory.Ram

namespace SeparatePin.Cpu

/-- Clock, reset and the write line of the load pins are low, so holding the chip changes nothing
in it. -/
structure Resting (cpu : Cpu) : Prop where
  clock : cpu.clock = false
  reset : cpu.reset = false
  instrWrite : cpu.instrWrite = false

/-- One byte over the load pins is one write to the program memory. It is made in the first hold,
and the second hold lowers the write line again without another one. -/
theorem loadByte_pins {cpu : Cpu} (h : cpu.Resting) (settleNs : UInt32) (addr : UInt16)
    (byte : UInt8) :
    pins.loadByte settleNs addr byte cpu
      = ({ cpu with
          program := cpu.program.write addr byte, lastClock := false, instrAddr := addr,
          instrIn := byte }, []) := by
  obtain ⟨core, program, data, pending, clock, lastClock, reset, enable, inVal, instrAddr, instrIn,
    instrWrite⟩ := cpu
  obtain ⟨hclock, hreset, hwrite⟩ := h
  simp only at hclock hreset hwrite
  subst hclock hreset hwrite
  simp [Device.loadByte, ClockedDevice.settle, pins, hold, holdMessages, rising]

/-- Bytes over the load pins are writes to consecutive addresses of the program memory. What the
load pins show at the end is left open here: with the write line low nothing looks at it. -/
theorem loadBytes_pins (bytes : List UInt8) {cpu : Cpu} (h : cpu.Resting) (settleNs : UInt32)
    (addr : UInt16) (notes : List Note) :
    ∃ lastClock instrAddr instrIn, pins.loadBytes settleNs bytes addr cpu notes
      = ({ cpu with
          program := cpu.program.writeAll addr bytes, lastClock, instrAddr, instrIn }, notes) := by
  -- Each byte leaves the chip at rest for the next one.
  induction bytes generalizing cpu addr notes with
  | nil => exact ⟨cpu.lastClock, cpu.instrAddr, cpu.instrIn, rfl⟩
  | cons byte rest ih =>
      have hnext : Resting { cpu with
          program := cpu.program.write addr byte, lastClock := false, instrAddr := addr,
          instrIn := byte } := ⟨h.clock, h.reset, h.instrWrite⟩
      obtain ⟨lastClock, instrAddr, instrIn, hrest⟩ := ih hnext (addr + 1) (notes ++ [])
      refine ⟨lastClock, instrAddr, instrIn, ?_⟩
      rw [Device.loadBytes, loadByte_pins h]
      exact hrest.trans (by rw [List.append_nil]; rfl)

/-- A program over the load pins is written from address zero on. -/
theorem loadProgram_pins {cpu : Cpu} (h : cpu.Resting) (settleNs : UInt32) (program : Rom) :
    ∃ lastClock, pins.loadProgram settleNs program cpu
      = ({ cpu with
          program := cpu.program.writeAll 0 program.bytes.toList, lastClock, instrAddr := 0,
          instrIn := 0 }, [.message (.programLoaded program.size)]) := by
  obtain ⟨lastClock, instrAddr, instrIn, hbytes⟩ :=
    loadBytes_pins program.bytes.toList h settleNs 0 []
  exact ⟨lastClock, by rw [Device.loadProgram, hbytes]; rfl⟩

/-- The reset sequence clears everything but the program. -/
theorem powerUp_pins {cpu : Cpu} (h : cpu.instrWrite = false) (windowNs : UInt32) :
    pins.powerUp windowNs cpu
      = ({ program := cpu.program, enable := true, inVal := cpu.inVal,
           instrAddr := cpu.instrAddr, instrIn := cpu.instrIn }, []) := by
  obtain ⟨core, program, data, pending, clock, lastClock, reset, enable, inVal, instrAddr, instrIn,
    instrWrite⟩ := cpu
  simp only at h
  subst h
  simp [ClockedDevice.powerUp, ClockedDevice.settle, pins, hold, holdMessages, rising]

/-- An image written into memory that was zero reads as the image everywhere, past its end too. -/
theorem read_program (program : Rom) (addr : UInt16) :
    (Ram.zero.writeAll 0 program.bytes.toList).read addr = program.read addr := by
  rw [Ram.read_writeAll _ _ _ _ (by simpa using program.size_le)]
  simp [Rom.read, List.getD_eq_getElem?_getD, Array.getD_eq_getD_getElem?]

/-- A chip that has been loaded and then reset holds the program and is in its first state
otherwise. Of the state in which it was left, only its program memory matters. -/
theorem powerUp_loaded {cpu : Cpu} (hreset : cpu.reset = false) (hwrite : cpu.instrWrite = false)
    (settleNs windowNs : UInt32) (program : Rom) :
    ∃ loaded, pins.loadProgram settleNs program (pins.setClock false cpu)
        = (loaded, [.message (.programLoaded program.size)])
      ∧ pins.powerUp windowNs (pins.setInVal 0 loaded)
        = ({ program := cpu.program.writeAll 0 program.bytes.toList, enable := true }, []) := by
  have hresting : (pins.setClock false cpu).Resting := ⟨rfl, hreset, hwrite⟩
  obtain ⟨lastClock, hloaded⟩ := loadProgram_pins hresting settleNs program
  have hkept : (pins.setInVal 0 { pins.setClock false cpu with
      program := cpu.program.writeAll 0 program.bytes.toList, lastClock, instrAddr := 0,
      instrIn := 0 }).instrWrite = false := hwrite
  exact ⟨_, hloaded, powerUp_pins hkept windowNs⟩

/-- What a run journals before its first cycle. -/
def opening (case : Case) (program : Rom) : List Note :=
  [.message (.runStarted case.name .separatePin)] ++ imageIgnored case
    ++ [.message (.programLoaded program.size)]

/-- How a run ends, by how its cycles ended. -/
def closing (case : Case) : Stop × Rig Cpu × Journal → TapeBench.Run Cpu
  | (.faulted fault, rig, journal) => ⟨.error fault, rig.device, journal⟩
  | (.exhausted, rig, journal) => ⟨.error (.timeout rig.driver.cycles), rig.device, journal⟩
  | (.halted, rig, journal) =>
    case.conclude rig.driver.cycles rig.channel.output rig.driver.tally rig.device journal

/-- The first cycle of a run starts from a chip that was loaded and then reset: its core is at the
start, its data is cleared, and its program memory holds the program in front of what was there. -/
theorem run_pins (cpu : Cpu) (hreset : cpu.reset = false) (hwrite : cpu.instrWrite = false)
    (config : Config) {case : Case} {program : Rom} (hload : Rom.load case.program = .ok program)
    (journal : Journal) :
    pins.run config case cpu journal
      = closing case (cyclesUntilHalted (fun rig => pins.halted rig.device) (Rig.cycle pins)
          config.cycleBudget.toNat
          ⟨{ settleNs := config.settleNs },
            { program := cpu.program.writeAll 0 program.bytes.toList, enable := true },
            .ofInput case.input (case.policy config .separatePin)⟩
          (journal.record (opening case program))) := by
  obtain ⟨loaded, hloaded, hpowered⟩ :=
    powerUp_loaded hreset hwrite config.settleNs config.resetWindowNs program
  have hrunning : pins.halted
      { program := cpu.program.writeAll 0 program.bytes.toList, enable := true } = false := rfl
  rw [Device.run, hload, opening, Journal.record_append, Journal.record_append]
  simp only [hloaded, hpowered, hrunning, Bool.false_eq_true, if_false, Journal.record_nil]
  split <;> (rename_i hstopped; rw [hstopped]; rfl)

end SeparatePin.Cpu

end TapeBench
