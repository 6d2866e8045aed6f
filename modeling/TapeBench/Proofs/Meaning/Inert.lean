import TapeBench.Proofs.Meaning.Comments

/-!
# `TapeBench.Proofs.Meaning.Inert`: comments change no verdict

The fresh processor runs a program and the same program without its comments. Both runs come to the
same end, whatever the budget allows: the numbers of cycles after which they end are fixed, the
program without comments needs no more of them, and what the runs are graded on is the same.

* `Inert`: what both runs come to.
* `comments_inert`: every program that leaves a zero behind it is treated so.
* `not_alike_oversized`: a data image that does not fit is refused, with every budget.
-/

set_option autoImplicit false

namespace TapeBench.Meaning

open Addressed (Cpu Latched Leads cpu)
open Bus (Op)
open Memory (Rom Ram)

/-- The case without the comments of its program. -/
def uncommentedCase (case : Case) : Case :=
  { case with program := uncommented case.program }

/-- What the fresh processor makes of a case under a policy, with the comments of its program and
without them:

- `graded`: both runs halt, after fixed numbers of cycles and with the same output, on which they
  are graded; the transactions agree in everything but the program reads;
- `starved`: both runs fault at the end of the input, with the same number of bytes read;
- `endless`: both runs time out, whatever the budget;
- `refused`: the data image does not fit, which ends both runs.

A run whose budget ends earlier times out. The numbers of cycles are not bounded, and one may be
larger than every budget of 64 bits. -/
inductive Inert (case : Case) (policy : Exhaustion) : Prop
  | graded (n m : Nat) (output : Bytes) (tally other : Tally) (sooner : m ≤ n)
      (counts : ∀ op ≠ Op.readProgram, other.get op = tally.get op)
      (verdicts : ∀ (config : Config) (journal : Journal), case.policy config .addressed = policy →
        (cpu.pins.run config case cpu.powerOn journal).verdict
            = (if config.cycleBudget.toNat < n then .error (.timeout config.cycleBudget.toNat)
              else if output = case.expected then .ok ⟨n, output, tally⟩
              else .error (.outputMismatch case.expected output))
          ∧ (cpu.pins.run config (uncommentedCase case) cpu.powerOn journal).verdict
            = if config.cycleBudget.toNat < m then .error (.timeout config.cycleBudget.toNat)
              else if output = case.expected then .ok ⟨m, output, other⟩
              else .error (.outputMismatch case.expected output))
  | starved (n m consumed : Nat) (sooner : m ≤ n)
      (verdicts : ∀ (config : Config) (journal : Journal), case.policy config .addressed = policy →
        (cpu.pins.run config case cpu.powerOn journal).verdict
            = (if config.cycleBudget.toNat ≤ n then .error (.timeout config.cycleBudget.toNat)
              else .error (.inputExhausted consumed))
          ∧ (cpu.pins.run config (uncommentedCase case) cpu.powerOn journal).verdict
            = if config.cycleBudget.toNat ≤ m then .error (.timeout config.cycleBudget.toNat)
              else .error (.inputExhausted consumed))
  | endless
      (verdicts : ∀ (config : Config) (journal : Journal), case.policy config .addressed = policy →
        (cpu.pins.run config case cpu.powerOn journal).verdict
            = .error (.timeout config.cycleBudget.toNat)
          ∧ (cpu.pins.run config (uncommentedCase case) cpu.powerOn journal).verdict
            = .error (.timeout config.cycleBudget.toNat))
  | refused (oversized : addressSpace < case.dataImage.size)
      (verdicts : ∀ (config : Config) (journal : Journal),
        (cpu.pins.run config case cpu.powerOn journal).verdict
            = .error (.dataImageTooLarge case.dataImage.size)
          ∧ (cpu.pins.run config (uncommentedCase case) cpu.powerOn journal).verdict
            = .error (.dataImageTooLarge case.dataImage.size))

/-- A data image that does not fit ends a run before the device is touched, under every budget. The
program has to fit here, since it is looked at first. -/
theorem verdict_of_oversized {case : Case} (hprogram : case.program.size ≤ addressSpace)
    (himage : addressSpace < case.dataImage.size) (config : Config) (chip : Cpu)
    (journal : Journal) :
    (cpu.pins.run config case chip journal).verdict
      = .error (.dataImageTooLarge case.dataImage.size) := by
  have hrom : Rom.load case.program = .ok ⟨case.program, hprogram⟩ := dif_pos hprogram
  have hram : Ram.load case.dataImage = .error (.dataImageTooLarge case.dataImage.size) :=
    dif_neg (Nat.not_le.mpr himage)
  have hstores : case.stores config = .error (.dataImageTooLarge case.dataImage.size) := by
    rw [Case.stores, hrom, hram]
  simp only [Addressed.Device.run, hstores]

/-- The stores of a case that fits and those of the case without comments differ in their programs.
At their first fetch both processors are twins. -/
theorem exists_twins {case : Case} (hprogram : case.program.size ≤ 65535)
    (himage : case.dataImage.size ≤ addressSpace) :
    ∃ program stripped data,
      (∀ config, case.stores config
        = .ok ⟨program, data, .ofInput case.input (case.policy config .addressed), {}⟩)
      ∧ (∀ config, (uncommentedCase case).stores config
        = .ok ⟨stripped, data, .ofInput case.input (case.policy config .addressed), {}⟩)
      ∧ ∀ channel, Twins [] (sourceOf case.program) 0
          { core := cpu.start, bus := ⟨program, data, channel, {}⟩ }
          { core := cpu.start, bus := ⟨stripped, data, channel, {}⟩ } := by
  have hshorter : (uncommented case.program).size ≤ 65535 :=
    Nat.le_trans (size_uncommented_le _) hprogram
  obtain ⟨program, hrom⟩ : ∃ program, Rom.load case.program = .ok program :=
    ⟨_, dif_pos (Nat.le_succ_of_le hprogram)⟩
  obtain ⟨stripped, hstripped⟩ : ∃ stripped, Rom.load (uncommented case.program) = .ok stripped :=
    ⟨_, dif_pos (Nat.le_succ_of_le hshorter)⟩
  obtain ⟨data, hram⟩ : ∃ data, Ram.load case.dataImage = .ok data := ⟨_, dif_pos himage⟩
  -- The text of the stripped program is the stripped text: a zero byte is no comment and stays.
  have hsource : Loaded ((sourceOf case.program).filter isCode) stripped := by
    rw [← sourceOf_uncommented]
    exact loaded_of_load hstripped hshorter
  refine ⟨program, stripped, data, ?_, ?_, ?_⟩
  · intro config
    rw [Case.stores, hrom, hram]
  · intro config
    rw [Case.stores, show Rom.load (uncommentedCase case).program = _ from hstripped,
      show Ram.load (uncommentedCase case).dataImage = _ from hram]
    rfl
  · intro channel
    exact ⟨rfl, rfl, loaded_of_load hrom hprogram, hsource, ⟨rfl, rfl, fun _ _ => rfl⟩⟩

section Ends

variable {case : Case} {config : Config} {bus : Peripheral} {n : Nat} {last : Latched Core}

/-- The verdict on a fresh processor that halts after `n` cycles. It is fixed but for the budget: a
timeout below `n` cycles, and from there on one grade. -/
theorem verdict_of_leads_halted (hstores : case.stores config = .ok bus)
    (h : Leads n { core := cpu.start, bus } last) (hlast : last.core.halted = true)
    (journal : Journal) :
    (cpu.pins.run config case cpu.powerOn journal).verdict
      = if config.cycleBudget.toNat < n then .error (.timeout config.cycleBudget.toNat)
        else if last.bus.channel.output = case.expected then
          .ok ⟨n, last.bus.channel.output, last.bus.tally⟩
        else .error (.outputMismatch case.expected last.bus.channel.output) := by
  obtain ⟨notes, hcycled⟩ := h
  rw [(cpu.run_pins config case cpu.powerOn journal).1,
    cpu.verdict_of_halted hstores rfl hcycled hlast journal, Case.grade]
  split_ifs <;> first | rfl | omega

/-- The verdict on a fresh processor whose turn behind `n` cycles faults. The turn itself has to be
within the budget, so a budget of exactly `n` gives a timeout. -/
theorem verdict_of_leads_faulted (hstores : case.stores config = .ok bus)
    (h : Leads n { core := cpu.start, bus } last) (hlast : last.core.halted = false)
    {fault : Fault} {stuck : Latched Core} {more : List Note}
    (hfault : cpu.turn last = ⟨.error fault, stuck, more⟩) (journal : Journal) :
    (cpu.pins.run config case cpu.powerOn journal).verdict
      = if config.cycleBudget.toNat ≤ n then .error (.timeout config.cycleBudget.toNat)
        else .error fault := by
  obtain ⟨notes, hcycled⟩ := h
  rw [(cpu.run_pins config case cpu.powerOn journal).1,
    cpu.verdict_of_faulted hstores rfl hcycled hlast hfault journal]
  split_ifs <;> first | rfl | omega

/-- The verdict on a fresh processor that takes more cycles than the budget has. -/
theorem verdict_of_leads_lt (hstores : case.stores config = .ok bus)
    (h : Leads n { core := cpu.start, bus } last) (hn : config.cycleBudget.toNat < n)
    (journal : Journal) :
    (cpu.pins.run config case cpu.powerOn journal).verdict
      = .error (.timeout config.cycleBudget.toNat) := by
  obtain ⟨notes, hcycled⟩ := h
  rw [(cpu.run_pins config case cpu.powerOn journal).1,
    cpu.verdict_of_lt hstores rfl hcycled hn journal]

end Ends

/-- Comments are inert: the fresh processor treats a program of at most 65535 bytes and the same
program without its comments alike. The bound leaves one address behind the source, so that both
programs end with a zero byte. The two processors are carried along as `Twins`, of which the one
without comments is never later than the other. -/
theorem comments_inert (case : Case) (policy : Exhaustion)
    (hprogram : case.program.size ≤ 65535) : Inert case policy := by
  by_cases himage : case.dataImage.size ≤ addressSpace
  -- A data image that does not fit is refused before the program matters.
  case neg =>
    have hlarge := Nat.not_le.mp himage
    have hfits : case.program.size ≤ addressSpace := Nat.le_succ_of_le hprogram
    have hshorter : (uncommentedCase case).program.size ≤ addressSpace :=
      Nat.le_trans (size_uncommented_le _) hfits
    refine .refused hlarge ?_
    intro config journal
    exact ⟨verdict_of_oversized hfits hlarge config _ journal,
      verdict_of_oversized hshorter hlarge config _ journal⟩
  obtain ⟨program, stripped, data, hstores, hothers, htwins⟩ := exists_twins hprogram himage
  have htwins := htwins (.ofInput case.input policy)
  by_cases hend : SameEnd
    { core := cpu.start, bus := ⟨program, data, .ofInput case.input policy, {}⟩ }
    { core := cpu.start, bus := ⟨stripped, data, .ofInput case.input policy, {}⟩ }
  · cases hend with
    | @halted n m last other sooner leads follows stopped stops alike =>
        refine .graded n m last.bus.channel.output last.bus.tally other.bus.tally sooner
          alike.tally ?_
        intro config journal hpolicy
        have hstripped := verdict_of_leads_halted (hpolicy ▸ hothers config) follows stops journal
        rw [alike.channel] at hstripped
        exact ⟨verdict_of_leads_halted (hpolicy ▸ hstores config) leads stopped journal, hstripped⟩
    | @starved n m consumed last other stuck rest notes more sooner leads follows running runs
        faults fails =>
        refine .starved n m consumed sooner ?_
        intro config journal hpolicy
        exact ⟨verdict_of_leads_faulted (hpolicy ▸ hstores config) leads running faults journal,
          verdict_of_leads_faulted (hpolicy ▸ hothers config) follows runs fails journal⟩
  · -- Without an end the twins go on for more turns than any budget has.
    refine .endless ?_
    intro config journal hpolicy
    have hrun := htwins.paired_run (config.cycleBudget.toNat + 1)
    rcases hrun with hsame | ⟨n, m, last, other, _, _, _, hm, hle, hfirst, hsecond, -⟩
    · exact absurd hsame hend
    · exact ⟨verdict_of_leads_lt (hpolicy ▸ hstores config) hfirst (by omega) journal,
        verdict_of_leads_lt (hpolicy ▸ hothers config) hsecond (by omega) journal⟩

/-- `a,[b.c,d]e` copies its input up to a zero; the zero byte behind it ends the program. -/
def commented : Case :=
  { name := "commented copy", program := #[97, 44, 91, 98, 46, 99, 44, 100, 93, 101, 0, 43],
    input := #[7, 0], expected := #[7] }

/-- Without its comments the program passes as well, with no more cycles and with the same data
reads, data writes and transfers. -/
theorem comments_inert_commented :
    commented.program.size ≤ 65535
      ∧ (cpu.pins.run { cycleBudget := 100 } commented cpu.powerOn .silent).verdict
        = .ok ⟨35, #[7], ⟨0, 11, 3, 2, 2, 1⟩⟩
      ∧ ∃ m tally, m ≤ 35
        ∧ (cpu.pins.run { cycleBudget := 100 } (uncommentedCase commented) cpu.powerOn
            .silent).verdict = .ok ⟨m, #[7], tally⟩
        ∧ ∀ op ≠ Op.readProgram, tally.get op = Tally.get ⟨0, 11, 3, 2, 2, 1⟩ op := by
  have hfits : commented.program.size ≤ 65535 := by decide
  have hpassed : (cpu.pins.run { cycleBudget := 100 } commented cpu.powerOn .silent).verdict
      = .ok ⟨35, #[7], ⟨0, 11, 3, 2, 2, 1⟩⟩ := by
    decide +kernel
  refine ⟨hfits, hpassed, ?_⟩
  -- The run itself says which of the four ends it is: it passes, with budget to spare.
  cases comments_inert commented .fail hfits with
  | graded n m output tally other sooner counts verdicts =>
      obtain ⟨hfirst, hsecond⟩ := verdicts { cycleBudget := 100 } .silent rfl
      rw [hpassed] at hfirst
      split_ifs at hfirst with hlate houtput
      cases hfirst
      have hsoon : ¬ ({ cycleBudget := 100 } : Config).cycleBudget.toNat < m := by
        show ¬ 100 < m
        omega
      rw [if_neg hsoon, if_pos houtput] at hsecond
      exact ⟨m, other, sooner, hsecond, counts⟩
  | starved n m consumed sooner verdicts =>
      have hfirst := (verdicts { cycleBudget := 100 } .silent rfl).1
      rw [hpassed] at hfirst
      split_ifs at hfirst
  | endless verdicts =>
      have hfirst := (verdicts { cycleBudget := 100 } .silent rfl).1
      rw [hpassed] at hfirst
      cases hfirst
  | refused oversized => exact absurd oversized (by decide)

/-- `+x` with a data image that is one byte too long. -/
def oversized : Case :=
  { name := "oversized image", program := #[43, 120], dataImage := .replicate 65537 0 }

/-- A data image that does not fit is refused with every budget, with comments and without them. So
the two runs come to none of the ends that a run may come to. -/
theorem not_alike_oversized :
    oversized.program.size ≤ 65535
      ∧ ¬ ((∃ enough : UInt64, ∀ (config : Config) (journal : Journal),
            enough ≤ config.cycleBudget →
            (∃ report other, (cpu.pins.run config oversized cpu.powerOn journal).verdict
                  = .ok report
                ∧ (cpu.pins.run config (uncommentedCase oversized) cpu.powerOn journal).verdict
                  = .ok other
                ∧ other.output = report.output)
            ∨ (∃ actual, (cpu.pins.run config oversized cpu.powerOn journal).verdict
                  = .error (.outputMismatch oversized.expected actual)
                ∧ (cpu.pins.run config (uncommentedCase oversized) cpu.powerOn journal).verdict
                  = .error (.outputMismatch oversized.expected actual))
            ∨ ∃ consumed, (cpu.pins.run config oversized cpu.powerOn journal).verdict
                  = .error (.inputExhausted consumed)
                ∧ (cpu.pins.run config (uncommentedCase oversized) cpu.powerOn journal).verdict
                  = .error (.inputExhausted consumed))
          ∨ ∀ (config : Config) (journal : Journal),
              (cpu.pins.run config oversized cpu.powerOn journal).verdict
                  = .error (.timeout config.cycleBudget.toNat)
                ∧ (cpu.pins.run config (uncommentedCase oversized) cpu.powerOn journal).verdict
                  = .error (.timeout config.cycleBudget.toNat)) := by
  have hprogram : oversized.program.size ≤ addressSpace := by decide
  have himage : addressSpace < oversized.dataImage.size := by
    show 65536 < (Array.replicate 65537 (0 : UInt8)).size
    rw [Array.size_replicate]
    decide
  refine ⟨by decide, ?_⟩
  -- Such an image is an error of the runner under every budget, and neither side allows for one.
  rintro (⟨enough, halike⟩ | hendless)
  · have hrefused := verdict_of_oversized hprogram himage { cycleBudget := enough } cpu.powerOn
      .silent
    rcases halike { cycleBudget := enough } .silent (UInt64.le_refl enough)
      with ⟨report, other, hfirst, -⟩ | ⟨actual, hfirst, -⟩ | ⟨consumed, hfirst, -⟩
    · rw [hrefused] at hfirst
      cases hfirst
    · rw [hrefused] at hfirst
      cases hfirst
    · rw [hrefused] at hfirst
      cases hfirst
  · have hrefused := verdict_of_oversized hprogram himage {} cpu.powerOn .silent
    rw [(hendless {} .silent).1] at hrefused
    cases hrefused

end TapeBench.Meaning
