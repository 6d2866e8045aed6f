import Mathlib.Data.List.GetD
import TapeBench.Proofs.SeparatePin.Load
import TapeBench.Proofs.Serial.Agreement

/-!
# `TapeBench.Proofs.Reuse`: what a run leaves behind for the next one

A device is left wherever the run before ended: in the middle of an instruction, with a clock that
is still high, with a value on its input that nobody took. The reset sequence of the next run, and
the load in front of it, write over all of this before it can matter.

Only the program memory of a chip with separate pins survives. A program is written over the one
before, byte by byte, so what lies behind its end is the tail of a longer one.

* `Run.Alike`: two runs that nobody can tell apart.
* `SeparatePin.Cpu.Used`: a chip that has been through some runs and nothing else.
* `SeparatePin.Cpu.left_of_used`: what such a chip still holds.
* `run_forgets`: the next run, over each of the three encodings.
-/

set_option autoImplicit false

namespace TapeBench

open Memory (Rom Ram)

/-- Two runs give the same verdict and add the same notes to the journal. -/
def Run.Alike {σ : Type} (first second : Run σ) : Prop :=
  first.verdict = second.verdict ∧ first.journal = second.journal

/-- What every cycle keeps is kept up to the end of a run, however it ends. A cycle that faults has
to keep it as well. -/
theorem cyclesUntilHalted_keeps {S : Type} {halted : S → Bool} {cycle : S → Step S Unit}
    {kept : S → Prop} (hcycle : ∀ state, kept state → kept (cycle state).state) (budget : Nat)
    {state : S} (h : kept state) (journal : Journal) :
    kept (cyclesUntilHalted halted cycle budget state journal).2.1 := by
  -- Induction along the loop: only a fault-free cycle leads on to another one.
  fun_induction cyclesUntilHalted halted cycle budget state journal with
  | case1 state journal hhalted => exact h
  | case2 state journal hrunning => exact h
  | case3 budget state journal hhalted => exact h
  | case4 budget state journal hrunning next notes htaken ih =>
      have hnext := hcycle state h
      rw [htaken] at hnext
      exact ih hnext
  | case5 budget state journal hrunning fault stuck notes htaken =>
      have hstuck := hcycle state h
      rw [htaken] at hstuck
      exact hstuck

/-! ### Memories -/

namespace Memory.Ram

/-- Memories that read alike everywhere are the same. -/
theorem eq_of_read {first second : Ram} (h : ∀ addr, first.read addr = second.read addr) :
    first = second := by
  obtain ⟨cells⟩ := first
  obtain ⟨others⟩ := second
  congr 1
  refine Vector.ext fun i hi => ?_
  have haddr : (UInt16.ofNat i).toNat = i := UInt16.toNat_ofNat_of_lt' hi
  have hread := h (.ofNat i)
  simpa only [read, haddr] using hread

/-- Bytes written from address zero on are read first; behind them a memory reads as before. -/
theorem read_writeAll_zero {bytes : List UInt8} (ram : Ram) (hbytes : bytes.length ≤ addressSpace)
    (addr : UInt16) : (ram.writeAll 0 bytes).read addr = bytes.getD addr.toNat (ram.read addr) := by
  rw [read_writeAll _ _ _ _ (by simpa using hbytes)]
  simp

/-- Bytes written from address zero on hide what was there. Only the tail behind them shows. -/
theorem writeAll_eq_of_tail {bytes : List UInt8} {first second : Ram}
    (hbytes : bytes.length ≤ addressSpace)
    (htail : ∀ addr, bytes.length ≤ addr.toNat → first.read addr = second.read addr) :
    first.writeAll 0 bytes = second.writeAll 0 bytes := by
  refine eq_of_read fun addr => ?_
  rw [read_writeAll_zero _ hbytes, read_writeAll_zero _ hbytes]
  rcases Nat.lt_or_ge addr.toNat bytes.length with hlt | hge
  · rw [List.getD_eq_getElem _ _ hlt, List.getD_eq_getElem _ _ hlt]
  · rw [htail addr hge]

end Memory.Ram

/-! ### Chips with separate pins -/

namespace SeparatePin

/-- A cycle drives the clock and the input pins and lets the device settle. What these keep, it
keeps, also when it faults. -/
theorem Rig.cycle_keeps {σ : Type} {pins : Device σ} {kept : σ → Prop}
    (hclock : ∀ high device, kept device → kept (pins.setClock high device))
    (hinput : ∀ byte device, kept device → kept (pins.setInVal byte device))
    (hhold : ∀ ns device, kept device → kept (pins.hold ns device)) (rig : Rig σ)
    (h : kept rig.device) : kept (rig.cycle pins).state.device := by
  obtain ⟨⟨settleNs, cycles, tally⟩, device, channel⟩ := rig
  have hlow := hclock false _ (hhold settleNs _ (hclock true device h))
  simp only [cycle, rise, lower, collect, feed, finish, ClockedDevice.settle, Step.done,
    Step.andThen]
  -- Whether a byte is collected does not matter to the device; whether one is fed does.
  cases pins.sample (pins.setClock true device) with
  | mk outEnable outVal inReading =>
      cases outEnable <;> cases inReading <;> simp only [Bool.false_eq_true, if_true, if_false]
      · exact hhold _ _ hlow
      · obtain ⟨result, next, notes⟩ := channel.read
        cases result with
        | error fault => exact hlow
        | ok byte => exact hhold _ _ (hinput _ _ hlow)
      · exact hhold _ _ hlow
      · obtain ⟨result, next, notes⟩ := (channel.write outVal).read
        cases result with
        | error fault => exact hlow
        | ok byte => exact hhold _ _ (hinput _ _ hlow)

namespace Cpu

/-- A chip that was made and then went through runs of the cases in `earlier`, the last one first,
on any bench, and through nothing else. -/
inductive Used : (earlier : List Case) → Cpu → Prop
  | fresh : Used [] {}
  | again {earlier : List Case} {cpu : Cpu} (used : Used earlier cpu) (config : Config)
      (case : Case) (journal : Journal) :
      Used (case :: earlier) (pins.run config case cpu journal).device

/-- Between two runs the reset line and the write line of the load pins are low, and the program
memory holds `program`. -/
structure Left (program : Ram) (cpu : Cpu) : Prop where
  reset : cpu.reset = false
  instrWrite : cpu.instrWrite = false
  program : cpu.program = program

variable {program : Ram} {cpu : Cpu}

/-- While the write line is low, holding the chip leaves its program alone. -/
theorem Left.hold (h : Left program cpu) : Left program cpu.hold := by
  obtain ⟨core, memory, data, pending, clock, lastClock, reset, enable, inVal, instrAddr, instrIn,
    instrWrite⟩ := cpu
  obtain ⟨hreset, hwrite, hprogram⟩ := h
  simp only at hreset hwrite hprogram
  subst hreset hwrite hprogram
  simp only [Cpu.hold, Bool.false_eq_true, if_false]
  split <;> exact ⟨rfl, rfl, rfl⟩

/-- No cycle writes to the program memory or touches the reset line. -/
theorem Left.cycle {rig : Rig Cpu} (h : Left program rig.device) :
    Left program (rig.cycle pins).state.device :=
  Rig.cycle_keeps (fun _ _ h => ⟨h.reset, h.instrWrite, h.program⟩)
    (fun _ _ h => ⟨h.reset, h.instrWrite, h.program⟩) (fun _ _ h => h.hold) rig h

/-- Whatever ended the cycles of a run, it leaves the chip that they have left. -/
theorem device_closing (case : Case) (ended : Stop × Rig Cpu × Journal) :
    (closing case ended).device = ended.2.1.device := by
  obtain ⟨stop, rig, journal⟩ := ended
  cases stop <;> rfl

/-- A run leaves its own program in the memory, over what was there. -/
theorem Left.run (h : Left program cpu) (config : Config) {case : Case} {loaded : Rom}
    (hload : Rom.load case.program = .ok loaded) (journal : Journal) :
    Left (program.writeAll 0 loaded.bytes.toList) (pins.run config case cpu journal).device := by
  rw [run_pins cpu h.reset h.instrWrite config hload journal, device_closing, h.program]
  have hcycle : ∀ rig : Rig Cpu, Left (program.writeAll 0 loaded.bytes.toList) rig.device →
      Left (program.writeAll 0 loaded.bytes.toList) (rig.cycle pins).state.device :=
    fun _ h => h.cycle
  exact cyclesUntilHalted_keeps hcycle _ ⟨rfl, rfl, rfl⟩ _

/-- A run whose program does not fit does not touch the chip. -/
theorem device_run_of_error {case : Case} {fault : Fault}
    (hload : Rom.load case.program = .error fault) (config : Config) (cpu : Cpu)
    (journal : Journal) : (pins.run config case cpu journal).device = cpu := by
  rw [Device.run, hload]

/-- Behind the longest program that was loaded, a used chip holds zeros. A load overwrites its own
length and leaves the rest, and no run writes to the program memory. -/
theorem left_of_used {earlier : List Case} (h : Used earlier cpu) :
    ∃ program, Left program cpu
      ∧ ∀ addr : UInt16,
        (∀ former ∈ earlier, former.program.size ≤ addressSpace →
          former.program.size ≤ addr.toNat) →
        program.read addr = 0 := by
  -- Induction on the runs. A run reaches as far into the memory as its own program is long.
  induction h with
  | fresh => exact ⟨.zero, ⟨rfl, rfl, rfl⟩, fun addr _ => Ram.read_zero addr⟩
  | @again earlier cpu used config case journal ih =>
      obtain ⟨program, hleft, hzero⟩ := ih
      cases hload : Rom.load case.program with
      | error fault =>
          rw [device_run_of_error hload]
          exact ⟨program, hleft, fun addr haddr =>
            hzero addr fun former hformer => haddr former (List.mem_cons_of_mem case hformer)⟩
      | ok loaded =>
          refine ⟨_, hleft.run config hload journal, ?_⟩
          intro addr haddr
          have hbytes := Rom.bytes_of_load hload
          have hsize : case.program.size ≤ addressSpace := hbytes ▸ loaded.size_le
          have hbehind : loaded.bytes.toList.length ≤ addr.toNat := by
            simpa [hbytes] using haddr case List.mem_cons_self hsize
          rw [Ram.read_writeAll_zero _ (by simpa using loaded.size_le),
            List.getD_eq_default _ _ hbehind]
          exact hzero addr fun former hformer =>
            haddr former (List.mem_cons_of_mem case hformer)

/-- A used chip whose longest program was not longer than the next one runs the next one as a fresh
chip does. The load covers whatever the earlier ones have left, and the reset in front of the first
cycle clears the core and the data. -/
theorem run_used {earlier : List Case} (h : Used earlier cpu) (config : Config) {case : Case}
    (hshort : ∀ former ∈ earlier, former.program.size ≤ addressSpace →
      former.program.size ≤ case.program.size) (journal : Journal) :
    (pins.run config case cpu journal).Alike (pins.run config case {} journal) := by
  cases hload : Rom.load case.program with
  | error fault =>
      rw [Device.run, Device.run, hload]
      exact ⟨rfl, rfl⟩
  | ok loaded =>
      obtain ⟨program, hleft, hzero⟩ := left_of_used h
      have hbytes := Rom.bytes_of_load hload
      -- The load makes the program memory what it would be on a fresh chip: it overwrites what any
      -- earlier program may have left, and behind that there are zeros.
      have hmemory : cpu.program.writeAll 0 loaded.bytes.toList
          = Ram.zero.writeAll 0 loaded.bytes.toList := by
        refine Ram.writeAll_eq_of_tail (by simpa using loaded.size_le) fun addr haddr => ?_
        rw [Array.length_toList, hbytes] at haddr
        rw [hleft.program, Ram.read_zero]
        exact hzero addr fun former hformer hfits =>
          Nat.le_trans (hshort former hformer hfits) haddr
      rw [run_pins cpu hleft.reset hleft.instrWrite config hload journal, hmemory,
        run_pins {} rfl rfl config hload journal]
      exact ⟨rfl, rfl⟩

end Cpu

end SeparatePin

/-! ### Chips behind the serial link -/

namespace Serial.Chip

/-- Reset and the first write of the input register leave nothing of a chip but its divider. -/
theorem run_link_eq {chip other : Chip} (hdivider : chip.divider = other.divider)
    (config : Config) (case : Case) (journal : Journal) :
    (link.run config case chip journal).Alike (link.run config case other journal) := by
  rw [Link.run, Link.run]
  cases case.stores config with
  | error fault => exact ⟨rfl, rfl⟩
  | ok bus =>
      simp only [start_link, hdivider]
      exact ⟨rfl, rfl⟩

end Serial.Chip

/-! ### Every encoding -/

open Addressed (cpu)

/-- A run does not depend on what the runs before it left behind:

* over the addressed bus, whatever the state of the processor;
* over the serial link, whatever the state of the chip, for a chip with the same divider;
* over separate pins, on a chip that was made and then used for runs only, however they ended, if
  none of the programs that were loaded for them was longer than the next one. -/
theorem run_forgets (config : Config) (case : Case) (journal : Journal) :
    (∀ left : Addressed.Cpu,
      (cpu.pins.run config case left journal).Alike
        (cpu.pins.run config case cpu.powerOn journal))
    ∧ (∀ (divider : Nat) (left : Serial.Chip),
      left.divider = (Serial.Chip.withDivider divider).divider →
      (Serial.Chip.link.run config case left journal).Alike
        (Serial.Chip.link.run config case (.withDivider divider) journal))
    ∧ ∀ (earlier : List Case) (left : SeparatePin.Cpu), SeparatePin.Cpu.Used earlier left →
      (∀ former ∈ earlier, former.program.size ≤ addressSpace →
        former.program.size ≤ case.program.size) →
      (SeparatePin.Cpu.pins.run config case left journal).Alike
        (SeparatePin.Cpu.pins.run config case {} journal) := by
  refine ⟨?_, ?_, ?_⟩
  · intro left
    obtain ⟨hverdict, hjournal⟩ := cpu.run_pins config case left journal
    obtain ⟨hverdict', hjournal'⟩ := cpu.run_pins config case cpu.powerOn journal
    exact ⟨hverdict.trans hverdict'.symm, hjournal.trans hjournal'.symm⟩
  · intro divider left hdivider
    exact Serial.Chip.run_link_eq hdivider config case journal
  · intro earlier left hused hshort
    exact SeparatePin.Cpu.run_used hused config hshort journal

/-- `+.` writes a one. -/
def writingOne : Case :=
  { name := "one", program := #[43, 46], expected := #[1] }

/-- `,` reads where there is no input. -/
def readingNothing : Case :=
  { name := "nothing", program := #[44], onExhausted := some .fail }

/-- Three devices that were left in the middle of something: in a walk to a bracket, in an execution
phase whose answer is still in the input register, and in a read that faulted. -/
theorem run_forgets_unfinished :
    ({ core := ⟨7, 9, .store 3⟩, phase := .execute, latched := 4, inputs := ⟨true, true, 99⟩,
        reset := true, divider := 2, prescale := 1, ticks := 40 : Serial.Chip }).divider
        = (Serial.Chip.withDivider 2).divider
      ∧ SeparatePin.Cpu.Used [readingNothing]
          (SeparatePin.Cpu.pins.run {} readingNothing {} .silent).device
      ∧ (∀ former ∈ [readingNothing], former.program.size ≤ addressSpace →
          former.program.size ≤ writingOne.program.size)
      ∧ (cpu.pins.run {} writingOne
            { core := ⟨7, 9, .scanDecode .backward 3⟩, clock := true, reset := true, valIn := 200 }
            .silent).Alike
          (cpu.pins.run {} writingOne cpu.powerOn .silent)
      ∧ (Serial.Chip.link.run {} writingOne
            { core := ⟨7, 9, .store 3⟩, phase := .execute, latched := 4,
              inputs := ⟨true, true, 99⟩, reset := true, divider := 2, prescale := 1, ticks := 40 }
            .silent).Alike
          (Serial.Chip.link.run {} writingOne (.withDivider 2) .silent)
      ∧ (SeparatePin.Cpu.pins.run {} writingOne
            (SeparatePin.Cpu.pins.run {} readingNothing {} .silent).device .silent).Alike
          (SeparatePin.Cpu.pins.run {} writingOne {} .silent) := by
  -- The separate-pin chip has been left starving in the middle of a program of one byte.
  have hused : SeparatePin.Cpu.Used [readingNothing]
      (SeparatePin.Cpu.pins.run {} readingNothing {} .silent).device :=
    .again .fresh {} readingNothing .silent
  have hshort : ∀ former ∈ [readingNothing], former.program.size ≤ addressSpace →
      former.program.size ≤ writingOne.program.size := by
    decide
  obtain ⟨haddressed, hserial, hpins⟩ := run_forgets {} writingOne .silent
  exact ⟨rfl, hused, hshort, haddressed _, hserial 2 _ rfl, hpins _ _ hused hshort⟩

/-- The tail of a longer program shows: behind `+.`, an empty program writes what was left. -/
example :
    (SeparatePin.Cpu.pins.run { cycleBudget := 20 } { name := "empty" }
        (SeparatePin.Cpu.pins.run { cycleBudget := 20 } writingOne {} .silent).device
        .silent).verdict = .error (.outputMismatch #[] #[1]) := by
  decide +kernel

end TapeBench
