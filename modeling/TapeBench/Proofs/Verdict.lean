import TapeBench.Addressed.Run
import TapeBench.Proofs.Peripheral
import TapeBench.Proofs.Trajectory
import TapeBench.Scripted.Device
import TapeBench.SeparatePin.Run

/-!
# `TapeBench.Proofs.Verdict`: what a clocked run comes to

Runs over the addressed bus and over separate pins differ in what a cycle is, and in nothing else.
Where the cycles lead from the reset device decides the verdict: the first halt, the first fault and
the budget compete, and the earliest of them ends the run. A halt that is reported with the last
cycle of the budget is in time, and a fault counts only if its cycle may still be taken.

* `Clocking`: what a run has to know of an encoding.
* `Clocking.run`: a run from the reset device.
* `Judged`: the law of verdicts.
* `Clocking.run_judged`: runs from the reset device keep it.
* `clocked_run_judged`: so do runs over the addressed bus and over separate pins.
-/

set_option autoImplicit false

namespace TapeBench

/-- An encoding as a run sees it, with devices of type `σ`. The states between two cycles have type
`S`:

- `halted`: the device reports a halt;
- `cycle`: one cycle of the driver;
- `device`: the device in a state;
- `cycles`: full cycles so far;
- `output`: output so far;
- `tally`: transactions so far. -/
structure Clocking (σ S : Type) where
  halted : S → Bool
  cycle : S → Step S Unit
  device : S → σ
  cycles : S → Nat
  output : S → Bytes
  tally : S → Tally

/-- The law of verdicts, for a `run` of `case` that reset brought to `start`:

- `zeroCycle`: a device that reports a halt at once did not run, and no cycle is taken;
- `graded`: a device whose first halt is within the budget is graded there, on the output up to it,
  byte for byte and in length;
- `faulted`: a cycle within the budget that faults before a halt was reported ends the run with its
  fault;
- `timeout`: every other run takes as many cycles as the budget says and times out, whatever its
  output. -/
structure Judged {σ S : Type} (clocking : Clocking σ S) (case : Case) (budget : Nat) (start : S)
    (run : Run σ) : Prop where
  zeroCycle : clocking.halted start = true →
    run.verdict = .error .zeroCycle ∧ run.device = clocking.device start
  graded : clocking.halted start = false → ∀ n last,
    HaltsAt clocking.halted clocking.cycle start n last → n ≤ budget →
      1 ≤ n ∧ run.device = clocking.device last
        ∧ run.verdict
          = if clocking.output last = case.expected then
              .ok ⟨n, clocking.output last, clocking.tally last⟩
            else
              .error (.outputMismatch case.expected (clocking.output last))
  faulted : clocking.halted start = false → ∀ m fault stuck,
    FaultsAt clocking.cycle start m fault stuck →
    RunsFor clocking.halted clocking.cycle start (m + 1) → m < budget →
      run.verdict = .error fault ∧ run.device = clocking.device stuck
  timeout : clocking.halted start = false →
    (∀ n last, HaltsAt clocking.halted clocking.cycle start n last → budget < n) →
    (∀ m fault stuck, FaultsAt clocking.cycle start m fault stuck →
      RunsFor clocking.halted clocking.cycle start (m + 1) → budget ≤ m) →
      run.verdict = .error (.timeout budget)
        ∧ ∃ last, stateAfter clocking.cycle start budget = some last
          ∧ run.device = clocking.device last

namespace Clocking

variable {σ S : Type}

/-- A run of `case` from `start`, which is the state behind the reset sequence. It is the common
part of the runs over the two clocked encodings. -/
def run (clocking : Clocking σ S) (case : Case) (budget : Nat) (start : S) (journal : Journal) :
    Run σ :=
  if clocking.halted start then
    ⟨.error .zeroCycle, clocking.device start, journal⟩
  else
    match cyclesUntilHalted clocking.halted clocking.cycle budget start journal with
    | (.faulted fault, last, journal) => ⟨.error fault, clocking.device last, journal⟩
    | (.exhausted, last, journal) =>
      ⟨.error (.timeout (clocking.cycles last)), clocking.device last, journal⟩
    | (.halted, last, journal) =>
      case.conclude (clocking.cycles last) (clocking.output last) (clocking.tally last)
        (clocking.device last) journal

/-- A fault-free cycle counts once. -/
def Counts (clocking : Clocking σ S) : Prop :=
  ∀ state last notes, clocking.cycle state = ⟨.ok (), last, notes⟩ →
    clocking.cycles last = clocking.cycles state + 1

variable {clocking : Clocking σ S} {start last : S} {n budget : Nat} {notes : List Note}

/-- A sequence of cycles counts its length. -/
theorem cycles_of_cycled (hcounts : clocking.Counts)
    (h : Cycled clocking.halted clocking.cycle n start notes last) :
    clocking.cycles last = clocking.cycles start + n := by
  induction h with
  | refl => rfl
  | cons _ taken _ ih => rw [ih, hcounts _ _ _ taken]; omega

section Ends

variable (hstart : clocking.halted start = false) (case : Case) (journal : Journal)

include hstart

/-- A run whose first halt is within the budget is concluded there. -/
theorem run_of_halted (h : Cycled clocking.halted clocking.cycle n start notes last)
    (hlast : clocking.halted last = true) (hn : n ≤ budget) :
    clocking.run case budget start journal
      = case.conclude (clocking.cycles last) (clocking.output last) (clocking.tally last)
          (clocking.device last) (journal.record notes) := by
  rw [run, if_neg (by simp [hstart]), cyclesUntilHalted_of_cycled h hn,
    cyclesUntilHalted_halted hlast]

/-- A run whose first fault is within the budget ends with it. -/
theorem run_of_faulted (h : Cycled clocking.halted clocking.cycle n start notes last)
    (hlast : clocking.halted last = false) {fault : Fault} {stuck : S} {more : List Note}
    (hfault : clocking.cycle last = ⟨.error fault, stuck, more⟩) (hn : n < budget) :
    clocking.run case budget start journal
      = ⟨.error fault, clocking.device stuck, (journal.record notes).record more⟩ := by
  rw [run, if_neg (by simp [hstart]), cyclesUntilHalted_of_cycled h (Nat.le_of_lt hn),
    cyclesUntilHalted_faulted hlast hfault (Nat.sub_pos_of_lt hn)]

/-- A run that takes all cycles of the budget without a halt times out. -/
theorem run_of_exhausted (h : Cycled clocking.halted clocking.cycle budget start notes last)
    (hlast : clocking.halted last = false) :
    clocking.run case budget start journal
      = ⟨.error (.timeout (clocking.cycles last)), clocking.device last,
          journal.record notes⟩ := by
  rw [run, if_neg (by simp [hstart]), cyclesUntilHalted_of_cycled h (Nat.le_refl budget),
    Nat.sub_self, cyclesUntilHalted_zero hlast]

end Ends

/-- Runs from the reset device keep the law of verdicts. Every clause of the law is about where the
device first halts or faults, which the loop finds in the order of the cycles. -/
theorem run_judged (hcounts : clocking.Counts) (hzero : clocking.cycles start = 0) (case : Case)
    (budget : Nat) (journal : Journal) :
    Judged clocking case budget start (clocking.run case budget start journal) where
  zeroCycle := by
    intro hstart
    rw [run, if_pos hstart]
    exact ⟨rfl, rfl⟩
  graded := by
    intro hstart n last hhalts hn
    obtain ⟨hlast, notes, hcycled⟩ := haltsAt_iff.mp hhalts
    have hpositive : n ≠ 0 := by
      rintro rfl
      cases hcycled
      rw [hstart] at hlast
      cases hlast
    rw [run_of_halted hstart case journal hcycled hlast hn, cycles_of_cycled hcounts hcycled,
      hzero, Nat.zero_add]
    exact ⟨Nat.one_le_iff_ne_zero.mpr hpositive, rfl, rfl⟩
  faulted := by
    intro hstart m fault stuck hfaults hruns hm
    obtain ⟨last, notes, more, hcycled, hlast, hfault⟩ := faultsAt_iff.mp ⟨hfaults, hruns⟩
    rw [run_of_faulted hstart case journal hcycled hlast hfault hm]
    exact ⟨rfl, rfl⟩
  timeout := by
    intro hstart hhalts hfaults
    -- The loop has three ends, and the hypotheses leave the last of them.
    obtain ⟨n, last, notes, hn, hcycled, hend⟩ :=
      cyclesUntilHalted_cases clocking.halted clocking.cycle budget start journal
    rcases hend with ⟨hlast, -⟩ | ⟨hlast, rfl, -⟩ | ⟨hlast, hlt, fault, stuck, more, hfault, -⟩
    · exact absurd (hhalts n last (haltsAt_iff.mpr ⟨hlast, notes, hcycled⟩)) (Nat.not_lt.mpr hn)
    · rw [run_of_exhausted hstart case journal hcycled hlast, cycles_of_cycled hcounts hcycled,
        hzero, Nat.zero_add]
      exact ⟨rfl, last, stateAfter_of_cycled hcycled, rfl⟩
    · obtain ⟨hfirst, hruns⟩ := faultsAt_iff.mpr ⟨last, notes, more, hcycled, hlast, hfault⟩
      exact absurd (hfaults n fault stuck hfirst hruns) (Nat.not_le.mpr hlt)

end Clocking

/-! ### The addressed bus -/

/-- A device that is held logs, and leaves the trace to the drivers. -/
@[simp] theorem ClockedDevice.entries_settle {σ : Type} (pins : ClockedDevice σ) (ns : UInt32)
    (device : σ) : entries (pins.settle ns device).2 = [] :=
  entries_messages _

/-- Neither does a device that is reset and released leave an entry. -/
@[simp] theorem ClockedDevice.entries_powerUp {σ : Type} (pins : ClockedDevice σ)
    (windowNs : UInt32) (device : σ) : entries (pins.powerUp windowNs device).2 = [] := by
  show entries (_ ++ _) = []
  rw [entries_append, entries_messages, entries_messages, List.append_nil]

namespace Addressed

variable {σ : Type}

/-- The addressed bus as a run sees it. -/
def Device.clocking (pins : Device σ) : Clocking σ (Rig σ) where
  halted := fun rig => pins.halted rig.device
  cycle := Rig.cycle pins
  device := Rig.device
  cycles := fun rig => rig.driver.cycles
  output := fun rig => rig.bus.channel.output
  tally := fun rig => rig.bus.tally

/-- The rig behind the reset sequence, in front of given stores. -/
def Device.ready (pins : Device σ) (config : Config) (bus : Peripheral) (device : σ) : Rig σ :=
  ⟨{ settleNs := config.settleNs },
    (pins.powerUp config.resetWindowNs (pins.setValIn 0 device)).1, bus⟩

/-- Of the two halves of a cycle, the falling one counts it. -/
theorem cycles_fall {pins : Device σ} {request : Bus.Request} {rig last : Rig σ}
    {reached : ClockPhase} {notes : List Note}
    (h : rig.fall pins request = ⟨.ok reached, last, notes⟩) :
    last.driver.cycles = rig.driver.cycles + 1 ∧ reached = .low := by
  obtain ⟨⟨phase, settleNs, cycles⟩, device, bus⟩ := rig
  simp only [Rig.fall] at h
  split at h
  · cases h
  · cases h
    exact ⟨rfl, rfl⟩

/-- A cycle over the addressed bus counts once, whether it begins with a low clock or with a request
that is pending. -/
theorem clocking_counts (pins : Device σ) : pins.clocking.Counts := by
  intro rig last notes h
  obtain ⟨reached, middle, front, more, hfirst, hsecond, -⟩ := Step.of_andThen_ok h
  obtain ⟨⟨phase, settleNs, cycles⟩, device, bus⟩ := rig
  cases phase with
  | low =>
      -- The rising half comes first, and the falling half is still to come.
      cases hfirst
      obtain ⟨_, _, _, _, hfall, hdone, -⟩ := Step.of_andThen_ok hsecond
      cases hdone
      simp only [Rig.advance] at hfall
      exact (cycles_fall hfall).1
  | high request =>
      simp only [Rig.advance] at hfirst
      obtain ⟨hcycles, rfl⟩ := cycles_fall hfirst
      cases hsecond
      exact hcycles

/-- Behind the reset sequence, a run over the addressed bus is a run of its clocking. The opening
holds log lines only, and no entry of the trace. -/
theorem Device.run_eq (pins : Device σ) {config : Config} {case : Case} {bus : Peripheral}
    (hstores : case.stores config = .ok bus) (device : σ) (journal : Journal) :
    ∃ opening, entries opening = [] ∧ pins.run config case device journal
      = pins.clocking.run case config.cycleBudget.toNat (pins.ready config bus device)
          (journal.record opening) := by
  refine ⟨[.message (.runStarted case.name .addressed)]
    ++ (pins.powerUp config.resetWindowNs (pins.setValIn 0 device)).2, ?_, ?_⟩
  · rw [entries_append, ClockedDevice.entries_powerUp]
    rfl
  · simp only [Device.run, hstores, Journal.record_append, Clocking.run]
    by_cases hstart : pins.clocking.halted (pins.ready config bus device) = true
    · exact (if_pos hstart).trans (if_pos hstart).symm
    · refine (if_neg hstart).trans (.trans ?_ (if_neg hstart).symm)
      simp only [Device.clocking, Device.ready]
      generalize cyclesUntilHalted _ _ _ _ _ = ended
      obtain ⟨stop, last, after⟩ := ended
      cases stop <;> rfl

end Addressed

/-! ### Separate pins -/

namespace SeparatePin

open Memory (Rom)

variable {σ : Type}

/-- Separate pins as a run sees them. -/
def Device.clocking (pins : Device σ) : Clocking σ (Rig σ) where
  halted := fun rig => pins.halted rig.device
  cycle := Rig.cycle pins
  device := Rig.device
  cycles := fun rig => rig.driver.cycles
  output := fun rig => rig.channel.output
  tally := fun rig => rig.driver.tally

/-- The device behind the load of a program, before the reset sequence. -/
def Device.loaded (pins : Device σ) (config : Config) (program : Rom) (device : σ) : σ :=
  (pins.loadProgram config.settleNs program (pins.setClock false device)).1

/-- The rig behind the load of a program and the reset sequence. -/
def Device.ready (pins : Device σ) (config : Config) (case : Case) (program : Rom) (device : σ) :
    Rig σ :=
  ⟨{ settleNs := config.settleNs },
    (pins.powerUp config.resetWindowNs (pins.setInVal 0 (pins.loaded config program device))).1,
    .ofInput case.input (case.policy config .separatePin)⟩

/-- Collecting a byte counts no cycle. -/
theorem cycles_collect (sampled : Sample) (rig : Rig σ) :
    (rig.collect sampled).state.driver.cycles = rig.driver.cycles := by
  obtain ⟨⟨settleNs, cycles, tally⟩, device, channel⟩ := rig
  simp only [Rig.collect]
  split <;> rfl

/-- Neither does feeding one. -/
theorem cycles_feed (pins : Device σ) (sampled : Sample) (rig : Rig σ) :
    (rig.feed pins sampled).state.driver.cycles = rig.driver.cycles := by
  obtain ⟨⟨settleNs, cycles, tally⟩, device, channel⟩ := rig
  simp only [Rig.feed]
  split
  · split <;> rfl
  · rfl

/-- A cycle over separate pins counts once, behind its falling edge. A cycle that faults is not
counted. -/
theorem clocking_counts (pins : Device σ) : pins.clocking.Counts := by
  intro rig last notes h
  simp only [Device.clocking, Rig.cycle] at h
  -- Of the four parts of a cycle only the last one counts.
  obtain ⟨sampled, risen, _, _, hrise, hrest, -⟩ := Step.of_andThen_ok h
  obtain ⟨_, collected, _, _, hcollect, hrest, -⟩ := Step.of_andThen_ok hrest
  obtain ⟨_, fed, _, _, hfeed, hfinish, -⟩ := Step.of_andThen_ok hrest
  have hcollected := cycles_collect sampled (risen.lower pins)
  have hfed := cycles_feed pins sampled collected
  rw [hcollect] at hcollected
  rw [hfeed] at hfed
  cases hrise
  cases hfinish
  simp only at hcollected hfed
  show fed.driver.cycles + 1 = rig.driver.cycles + 1
  rw [hfed, hcollected]
  rfl

/-- A program goes over the load pins without an entry in the trace, as the load pins are not the
bus. -/
theorem Device.entries_loadProgram (pins : Device σ) (settleNs : UInt32) (program : Rom)
    (device : σ) : entries (pins.loadProgram settleNs program device).2 = [] := by
  have hbytes : ∀ (bytes : List UInt8) (addr : UInt16) (device : σ) (notes : List Note),
      entries notes = [] → entries (pins.loadBytes settleNs bytes addr device notes).2 = [] := by
    intro bytes
    -- Induction on the bytes, with the notes so far free, since the load hands them on.
    induction bytes with
    | nil => exact fun _ _ _ hnotes => hnotes
    | cons byte rest ih =>
        intro addr device notes hnotes
        refine ih _ _ _ ?_
        show entries (notes ++ (_ ++ _)) = []
        rw [entries_append, hnotes, entries_append, entries_messages, entries_messages]
        rfl
  show entries (_ ++ _) = []
  rw [entries_append, hbytes _ _ _ _ entries_nil]
  rfl

/-- Behind the reset sequence, a run over separate pins is a run of its clocking. The opening holds
log lines only: the warning about a data image that is ignored, and those of the load and the reset.
-/
theorem Device.run_eq (pins : Device σ) {config : Config} {case : Case} {program : Rom}
    (hload : Rom.load case.program = .ok program) (device : σ) (journal : Journal) :
    ∃ opening, entries opening = [] ∧ pins.run config case device journal
      = pins.clocking.run case config.cycleBudget.toNat (pins.ready config case program device)
          (journal.record opening) := by
  have hignored : entries (imageIgnored case) = [] := by
    unfold imageIgnored
    split <;> rfl
  refine ⟨[.message (.runStarted case.name .separatePin)] ++ imageIgnored case
    ++ (pins.loadProgram config.settleNs program (pins.setClock false device)).2
    ++ (pins.powerUp config.resetWindowNs
      (pins.setInVal 0 (pins.loaded config program device))).2, ?_, ?_⟩
  · rw [entries_append, entries_append, entries_append, hignored, pins.entries_loadProgram,
      ClockedDevice.entries_powerUp]
    rfl
  · -- Behind the opening the run is the loop of `Clocking.run`, which asks first for a halt too.
    simp only [Device.run, hload, Journal.record_append, Clocking.run]
    by_cases hstart : pins.clocking.halted (pins.ready config case program device) = true
    · exact (if_pos hstart).trans (if_pos hstart).symm
    · refine (if_neg hstart).trans (.trans ?_ (if_neg hstart).symm)
      simp only [Device.clocking, Device.ready, Device.loaded]
      generalize cyclesUntilHalted _ _ _ _ _ = ended
      obtain ⟨stop, last, after⟩ := ended
      cases stop <;> rfl

end SeparatePin

/-! ### Both encodings -/

open Memory (Rom)

/-- The runs of a case that fits keep the law of verdicts, whatever the device does: over the
addressed bus, and over separate pins, where a data image does not matter. -/
theorem clocked_run_judged {σ : Type} (config : Config) (case : Case) (device : σ)
    (journal : Journal) (hprogram : case.program.size ≤ addressSpace) :
    (∀ pins : Addressed.Device σ, case.dataImage.size ≤ addressSpace →
      ∃ bus, case.stores config = .ok bus
        ∧ Judged pins.clocking case config.cycleBudget.toNat (pins.ready config bus device)
            (pins.run config case device journal))
    ∧ ∀ pins : SeparatePin.Device σ,
      ∃ program, Rom.load case.program = .ok program
        ∧ Judged pins.clocking case config.cycleBudget.toNat
            (pins.ready config case program device) (pins.run config case device journal) := by
  refine ⟨?_, ?_⟩
  · intro pins himage
    obtain ⟨bus, hstores⟩ := case.exists_stores_of_le config hprogram himage
    refine ⟨bus, hstores, ?_⟩
    obtain ⟨opening, -, hrun⟩ := pins.run_eq hstores device journal
    rw [hrun]
    exact Clocking.run_judged (Addressed.clocking_counts pins) rfl case _ _
  · intro pins
    have hload : Rom.load case.program = .ok ⟨case.program, hprogram⟩ := dif_pos hprogram
    refine ⟨_, hload, ?_⟩
    obtain ⟨opening, -, hrun⟩ := pins.run_eq hload device journal
    rw [hrun]
    exact Clocking.run_judged (SeparatePin.clocking_counts pins) rfl case _ _

/-- A case without input that expects one byte. -/
def oneByte : Case :=
  { name := "one byte", expected := #[65], onExhausted := some .fail }

/-- A device that writes the byte in its only cycle passes with a budget of one cycle. A device that
reads in its only cycle faults, though it would report a halt right behind. -/
theorem clocked_run_judged_one_cycle :
    oneByte.program.size ≤ addressSpace ∧ oneByte.dataImage.size ≤ addressSpace
      ∧ (Scripted.addressed.run { cycleBudget := 1 } oneByte
          { rows := #[⟨7, 0, 65⟩], haltAt := some 1 } .silent).verdict
        = .ok ⟨1, #[65], { writeIo := 1 }⟩
      ∧ (Scripted.separatePin.run { cycleBudget := 1 } oneByte
          { rows := #[⟨true, 65, true⟩], haltAt := some 1 } .silent).verdict
        = .error (.inputExhausted 0) := by
  have hprogram : oneByte.program.size ≤ addressSpace := Nat.zero_le _
  have himage : oneByte.dataImage.size ≤ addressSpace := Nat.zero_le _
  refine ⟨hprogram, himage, ?_, ?_⟩
  · obtain ⟨bus, hstores, hjudged⟩ := (clocked_run_judged { cycleBudget := 1 } oneByte
      { rows := #[⟨7, 0, 65⟩], haltAt := some 1 } .silent hprogram).1 Scripted.addressed himage
    obtain ⟨program, data, -, -, rfl⟩ := Case.exists_of_stores hstores
    exact (hjudged.graded rfl 1 _ (haltsAt_iff.mpr ⟨rfl, _, .single rfl rfl⟩)
      (Nat.le_refl 1)).2.2
  · obtain ⟨program, hload, hjudged⟩ := (clocked_run_judged { cycleBudget := 1 } oneByte
      { rows := #[⟨true, 65, true⟩], haltAt := some 1 } .silent hprogram).2 Scripted.separatePin
    rw [show Rom.load oneByte.program = .ok ⟨_, hprogram⟩ from dif_pos hprogram] at hload
    cases hload
    -- The first cycle starves, so there is only the start in front of it to be found running.
    refine (hjudged.faulted rfl 0 _ _ ⟨_, _, rfl, rfl⟩ ?_ Nat.zero_lt_one).1
    intro k hk state hstate
    obtain rfl : k = 0 := Nat.lt_one_iff.mp hk
    cases hstate
    rfl

end TapeBench
