import TapeBench.Proofs.Peripheral
import TapeBench.Proofs.Serial.Polls
import TapeBench.Proofs.Trajectory
import TapeBench.Recorded
import TapeBench.Scripted.Link

/-!
# `TapeBench.Proofs.Serial.Budget`: how many clock pulses a budget buys

A run over the serial link polls before it looks at its budget, and looks at it behind the clock
pulse. So it pulses the clock once under a budget of zero. Under a budget that is as large as the
number of pulses up to the first halt, it pulses the clock as often as it has to, and times out
before the poll that would find the device halted. A clocked run with this budget is graded.

* `Link.Metered`: a state of the link tells how often its clock was pulsed.
* `metered_recorded`: with its calls taken down, every link is of this kind.
* `pulses_poll_le`: a poll pulses the clock once at most.
* `run_budget`: the clock pulses and the verdict of a run, from its budget.
-/

set_option autoImplicit false

namespace TapeBench

/-- What holds of the states that two actions leave holds of the state that they leave one after
the other. -/
theorem Step.state_andThen {S α β : Type} {P : S → Prop} {first : Step S α}
    {next : α → S → Step S β} (hfirst : P first.state)
    (hnext : ∀ value, P (next value first.state).state) : P (first.andThen next).state := by
  obtain ⟨result, middle, notes⟩ := first
  cases result with
  | error fault => exact hfirst
  | ok value => exact hnext value

namespace Serial

variable {σ : Type}

/-- `pulses` tells from a state of the link how often its clock was pulsed, with or without
success:

- `setReset`, `setInputs`, `getOutputs`, `hold`: the other calls do not count;
- `stepClock`: a pulse counts once. -/
structure Link.Metered (link : Link σ) (pulses : σ → Nat) : Prop where
  setReset : ∀ high device, pulses (link.setReset high device).2 = pulses device
  setInputs : ∀ bits device, pulses (link.setInputs bits device).2 = pulses device
  getOutputs : ∀ device, pulses (link.getOutputs device).2 = pulses device
  stepClock : ∀ device, pulses (link.stepClock device).2 = pulses device + 1
  hold : ∀ ns device, pulses (link.hold ns device) = pulses device

/-- With its calls taken down, every link tells how often its clock was pulsed, so the laws below
hold of every link. A pulse that fails is counted as well. -/
theorem metered_recorded (link : Link σ) :
    link.recorded.Metered fun recorded => recorded.calls.count .step where
  setReset := by
    intro high recorded
    simp [Link.recorded, Recorded.ask]
  setInputs := by
    intro bits recorded
    simp [Link.recorded, Recorded.ask]
  getOutputs := by
    intro recorded
    simp [Link.recorded, Recorded.ask]
  stepClock := by
    intro recorded
    simp [Link.recorded, Recorded.ask]
  hold := by
    intro ns recorded
    simp [Link.recorded, Recorded.drive]

/-- A scripted link counts its pulses itself, those that it was told to fail included. -/
theorem metered_scripted : Scripted.link.Metered fun tape => tape.made.step := by
  -- Every call is counted before the tape decides whether it fails, and reading on counts nothing.
  have hattempt : ∀ (kind : Scripted.CallKind) (tape : Scripted.Tape),
      (tape.attempt kind).2 = { tape with made := tape.made.count kind } := by
    intro kind tape
    simp only [Scripted.Tape.attempt]
    split <;> rfl
  have hnext : ∀ tape : Scripted.Tape, tape.next.2.made = tape.made := by
    rintro ⟨_ | ⟨bits, rest⟩, _ | bits, failures, made⟩ <;> rfl
  constructor
  · intro high tape
    simp only [Scripted.link, hattempt]
    rfl
  · intro bits tape
    simp only [Scripted.link, hattempt]
    rfl
  · intro tape
    have houtputs := hattempt .outputs tape
    simp only [Scripted.link]
    split <;> rename_i heq <;> rw [heq] at houtputs <;> subst houtputs
    · rfl
    · simp only [hnext]
      rfl
  · intro tape
    simp only [Scripted.link, hattempt]
    rfl
  · intro ns tape
    rfl

section Pulses

variable {link : Link σ} {pulses : σ → Nat} (hmetered : link.Metered pulses)

/-- Serving a phase leaves the link alone. -/
theorem device_enter (phase : Phase) (value : UInt8) (rig : Rig σ) :
    (rig.enter phase value).state.device = rig.device := by
  obtain ⟨host, device, bus⟩ := rig
  cases phase with
  | execute =>
      simp only [Rig.enter, Rig.execute]
      split <;> rfl
  | idle | opcode | addressHigh | addressLow => rfl

include hmetered

/-- Writing the input register pulses no clock, whether the write fails or not. -/
theorem pulses_sendInputs (rig : Rig σ) :
    pulses (rig.sendInputs link).state.device = pulses rig.device := by
  obtain ⟨host, device, bus⟩ := rig
  have hcall := hmetered.setInputs host.inputs.toBits device
  simp only [Rig.sendInputs, Link.call]
  split <;> rename_i heq <;> rw [heq] at hcall <;> exact hcall

/-- Neither does raising the enable flag. -/
theorem pulses_enable (rig : Rig σ) :
    pulses (rig.enable link).state.device = pulses rig.device := by
  obtain ⟨host, device, bus⟩ := rig
  simp only [Rig.enable]
  exact pulses_sendInputs hmetered _

/-- Pulsing the clock does so once, also if the pulse fails. -/
theorem pulses_pulse (phase : Phase) (rig : Rig σ) :
    pulses (rig.pulse link phase).state.device = pulses rig.device + 1 := by
  obtain ⟨host, device, bus⟩ := rig
  have hcall := hmetered.stepClock device
  obtain ⟨result, next, hstep⟩ : ∃ result next, link.stepClock device = (result, next) :=
    ⟨_, _, rfl⟩
  rw [hstep] at hcall
  simp only [Rig.pulse, hstep]
  cases result <;> exact hcall

/-- Serving a new phase pulses no clock before the input register is written. -/
theorem pulses_served (phase : Phase) (value : UInt8) (rig : Rig σ) :
    pulses ((rig.enter phase value).andThen fun _ rig => rig.sendInputs link).state.device
      = pulses rig.device := by
  have hentered : pulses (rig.enter phase value).state.device = pulses rig.device := by
    rw [device_enter]
  refine Step.state_andThen (P := fun last : Rig σ => pulses last.device = pulses rig.device)
    hentered ?_
  intro _
  rw [pulses_sendInputs hmetered, hentered]

/-- Serving an observation pulses the clock once, or fails before: in the stores, or where the input
register is written. -/
theorem pulses_exchange_le (phase : Phase) (transition : Transition) (value : UInt8) (rig : Rig σ) :
    pulses (rig.exchange link phase transition value).state.device ≤ pulses rig.device + 1 := by
  obtain ⟨host, device, bus⟩ := rig
  simp only [Rig.exchange]
  cases transition with
  | held => exact Nat.le_of_eq (pulses_pulse hmetered phase _)
  | entered =>
      have hserved := pulses_served hmetered phase value ⟨host.latch phase value, device, bus⟩
      refine Step.state_andThen (P := fun last : Rig σ => pulses last.device ≤ pulses device + 1)
        (Nat.le_succ_of_le (Nat.le_of_eq hserved)) ?_
      intro _
      exact Nat.le_of_eq ((pulses_pulse hmetered phase _).trans (congrArg (· + 1) hserved))

/-- A poll pulses the clock once at most. Only a poll that serves an observation comes to the pulse,
and it comes there once. -/
theorem pulses_poll_le (rig : Rig σ) :
    pulses (rig.poll link).state.device ≤ pulses rig.device + 1 := by
  obtain ⟨host, device, bus⟩ := rig
  have hread := hmetered.getOutputs device
  obtain ⟨result, next, houtputs⟩ : ∃ result next, link.getOutputs device = (result, next) :=
    ⟨_, _, rfl⟩
  rw [houtputs] at hread
  simp only [Rig.poll, houtputs]
  -- Of the four ways through a poll only the last one comes to the pulse.
  cases result with
  | error error => exact Nat.le_succ_of_le (Nat.le_of_eq hread)
  | ok bits =>
      simp only
      split
      · exact Nat.le_succ_of_le (Nat.le_of_eq hread)
      · split
        · exact Nat.le_succ_of_le (Nat.le_of_eq hread)
        · exact hread ▸ pulses_exchange_le hmetered _ _ _ _

/-- Serving an observation without a fault pulses the clock once, whether the phase was held or
entered. -/
theorem pulses_of_exchange {phase : Phase} {transition : Transition} {value : UInt8}
    {rig last : Rig σ} {found : Polled} {notes : List Note}
    (h : rig.exchange link phase transition value = ⟨.ok found, last, notes⟩) :
    pulses last.device = pulses rig.device + 1 := by
  obtain ⟨host, device, bus⟩ := rig
  simp only [Rig.exchange] at h
  -- A held phase is one pulse. An entered one is served first, which takes none.
  cases transition with
  | held =>
      have hpulsed := pulses_pulse hmetered phase ⟨host.latch phase value, device, bus⟩
      simp only at h
      rw [h] at hpulsed
      exact hpulsed
  | entered =>
      obtain ⟨_, sent, _, _, hserve, hpulse, _⟩ := Step.of_andThen_ok h
      have hserved := pulses_served hmetered phase value ⟨host.latch phase value, device, bus⟩
      have hpulsed := pulses_pulse hmetered phase sent
      rw [hserve] at hserved
      rw [hpulse] at hpulsed
      exact hpulsed.trans (congrArg (· + 1) hserved)

/-- A poll that finds the device running pulses the clock once. -/
theorem pulses_of_running {rig last : Rig σ} {phase : Phase} {notes : List Note}
    (h : rig.poll link = ⟨.ok (.running phase), last, notes⟩) :
    pulses last.device = pulses rig.device + 1 := by
  obtain ⟨host, device, bus⟩ := rig
  have hread := hmetered.getOutputs device
  simp only [Rig.poll] at h
  split at h
  · cases h
  · rename_i bits next houtputs
    rw [houtputs] at hread
    split at h
    · cases h
    · split at h
      · cases h
      · exact (pulses_of_exchange hmetered h).trans (congrArg (· + 1) hread)

/-- A sequence of polls pulses the clock as often as it is long. -/
theorem pulses_polls {n : Nat} {rig last : Rig σ} {notes : List Note}
    (h : Polls link n rig notes last) : pulses last.device = pulses rig.device + n := by
  induction h with
  | refl => rfl
  | cons running taken _ ih =>
      obtain ⟨phase, hpoll⟩ := exists_running_of_polled running taken
      rw [ih, pulses_of_running hmetered hpoll]
      omega

/-- The loop pulses the clock once more than its spare budget says, at most. It polls before it
looks at the budget, so the first poll is not taken from it. -/
theorem pulses_pollsUntilHalted_le (spare : Nat) (rig : Rig σ) (journal : Journal) :
    pulses (link.pollsUntilHalted spare rig journal).2.1.device
      ≤ pulses rig.device + (spare + 1) := by
  obtain ⟨n, last, notes, hpolls, hend⟩ := pollsUntilHalted_cases link spare rig journal
  have hcount := pulses_polls hmetered hpolls
  have hnext := pulses_poll_le hmetered last
  -- At most `n` pulses behind `n` polls, and one more where the loop ends inside of a poll.
  rcases hend with ⟨hn, stuck, more, hpoll, hrun⟩ | ⟨hn, hrun⟩
    | ⟨hn, fault, stuck, more, hpoll, hrun⟩
  · rw [hpoll] at hnext
    simp only at hnext
    rw [hrun]
    simp only
    omega
  · rw [hrun]
    simp only
    omega
  · rw [hpoll] at hnext
    simp only at hnext
    rw [hrun]
    simp only
    omega

/-- Reset and enabling pulse no clock: the one is a line of its own, and the other is a write to the
input register. -/
theorem pulses_start (config : Config) (bus : Peripheral) (device : σ) :
    pulses (link.start config bus device).state.device = pulses device := by
  have hcall : ∀ (outcome : Except LinkError Unit × σ),
      (Link.call outcome []).state = outcome.2 := by
    rintro ⟨_ | _, _⟩ <;> rfl
  -- Two calls on the reset line and a hold, none of which is a pulse, whichever of them fails.
  have hpower : pulses (link.powerUp config.serialResetHoldNs device).state = pulses device := by
    rw [Link.powerUp]
    refine Step.state_andThen (P := fun last => pulses last = pulses device) ?_ ?_
    · rw [hcall, hmetered.setReset]
    · intro _
      rw [hcall, hmetered.setReset, hmetered.hold, hcall, hmetered.setReset]
  rw [Link.start]
  refine Step.state_andThen (P := fun last : Rig σ => pulses last.device = pulses device) hpower ?_
  intro _
  rw [pulses_enable hmetered]
  exact hpower

/-- A run pulses the clock as often as its budget says, and once under a budget of zero, at most.
This holds of every end, a fault in the middle of a poll included. -/
theorem pulses_run_le (config : Config) (case : Case) (device : σ) (journal : Journal) :
    pulses (link.run config case device journal).device
      ≤ pulses device + max config.cycleBudget.toNat 1 := by
  have hspare : config.cycleBudget.toNat - 1 + 1 = max config.cycleBudget.toNat 1 := by omega
  rw [Link.run]
  cases case.stores config with
  | error fault => exact Nat.le_add_right _ _
  | ok bus =>
      have hstarted := pulses_start hmetered config bus device
      obtain ⟨result, rig, opening, hstart⟩ : ∃ result rig opening,
          link.start config bus device = ⟨result, rig, opening⟩ := ⟨_, _, _, rfl⟩
      rw [hstart] at hstarted
      simp only [hstart]
      cases result with
      | error fault => exact Nat.le_trans (Nat.le_of_eq hstarted) (Nat.le_add_right _ _)
      | ok value =>
          simp only
          -- Every end of the loop leaves the device that the loop left.
          have hloop := pulses_pollsUntilHalted_le hmetered (config.cycleBudget.toNat - 1) rig
            ((journal.record [.message (.runStarted case.name .serial)]).record opening)
          rw [hspare, hstarted] at hloop
          generalize link.pollsUntilHalted _ _ _ = ended at hloop ⊢
          obtain ⟨stop, last, after⟩ := ended
          cases stop with
          | faulted fault => exact hloop
          | exhausted => exact hloop
          | halted =>
              simp only
              split <;> exact hloop

end Pulses

section Ends

variable {link : Link σ} {config : Config} {case : Case} {bus : Peripheral} {device : σ}
  {rig last : Rig σ} {opening : List Note} {n : Nat} (hstores : case.stores config = .ok bus)
  (hstart : link.start config bus device = ⟨.ok (), rig, opening⟩)
  (hhalts : HaltsAt (Rig.stopped link) (Rig.polled link) rig n last) (hpositive : 1 ≤ n)

include hstores hstart hhalts hpositive

/-- A run with budget left at its first halt is graded there. The poll that finds the halt takes one
more from the budget, so `n` pulses need a budget of more than `n`. -/
theorem run_of_haltsAt_lt (hn : n < config.cycleBudget.toNat) (journal : Journal) :
    ∃ notes, Polls link n rig notes last ∧ link.run config case device journal
      = case.conclude n last.bus.channel.output last.bus.tally (link.getOutputs last.device).2
          (((journal.record [.message (.runStarted case.name .serial)]).record opening).record
            notes) := by
  obtain ⟨hlast, notes, hpolls⟩ := haltsAt_iff.mp hhalts
  have hcount : last.host.steps = n := by
    rw [steps_polls hpolls, steps_of_start hstart, Nat.zero_add]
  have hrun := run_of_polls_stopped hstores hstart hpolls (by omega) hlast (by omega) journal
  rw [hcount] at hrun
  exact ⟨notes, hpolls, hrun⟩

/-- A run whose budget is used up at its first halt, or before it, times out behind the last pulse
that the budget allows. -/
theorem run_of_haltsAt_ge (hn : config.cycleBudget.toNat ≤ n) (journal : Journal) :
    ∃ notes stuck, Polls link (max config.cycleBudget.toNat 1) rig notes stuck
      ∧ link.run config case device journal
        = ⟨.error (.timeout (max config.cycleBudget.toNat 1)), stuck.device,
            ((journal.record [.message (.runStarted case.name .serial)]).record opening).record
              notes⟩ := by
  obtain ⟨-, whole, hpolls⟩ := haltsAt_iff.mp hhalts
  have hspare : config.cycleBudget.toNat - 1 + 1 = max config.cycleBudget.toNat 1 := by omega
  have hlt : config.cycleBudget.toNat - 1 < n := by omega
  obtain ⟨stuck, notes, hfront, hloop⟩ := pollsUntilHalted_of_lt hpolls hlt
    ((journal.record [.message (.runStarted case.name .serial)]).record opening)
  rw [hspare] at hfront
  have hcount : stuck.host.steps = max config.cycleBudget.toNat 1 := by
    rw [steps_polls hfront, steps_of_start hstart, Nat.zero_add]
  refine ⟨notes, stuck, hfront, ?_⟩
  rw [Link.run, hstores]
  simp only [hstart, hloop, hcount]

end Ends

/-- The clock pulses and the verdict of a run, from its budget. No run pulses the clock more often
than the budget says, or once if it says zero. A run whose device reports its first halt behind `n`
pulses is graded under a budget that is larger than `n`; under any other budget it times out behind
the last pulse that the budget allows. -/
theorem run_budget (link : Link σ) (config : Config) (case : Case) (device : σ)
    (journal : Journal) :
    (∀ pulses, link.Metered pulses →
      pulses (link.run config case device journal).device
        ≤ pulses device + max config.cycleBudget.toNat 1)
      ∧ ∀ bus rig opening n last, case.stores config = .ok bus →
        link.start config bus device = ⟨.ok (), rig, opening⟩ →
        HaltsAt (Rig.stopped link) (Rig.polled link) rig n last → 1 ≤ n →
          (link.run config case device journal).verdict
              = (if n < config.cycleBudget.toNat then
                  case.grade n last.bus.channel.output last.bus.tally
                else
                  .error (.timeout (max config.cycleBudget.toNat 1)))
            ∧ ∀ pulses, link.Metered pulses →
              pulses (link.run config case device journal).device
                = pulses device + min n (max config.cycleBudget.toNat 1) := by
  refine ⟨fun pulses hmetered => pulses_run_le hmetered config case device journal, ?_⟩
  intro bus rig opening n last hstores hstart hhalts hpositive
  -- The start resets and enables the chip, and gives it no pulse.
  have hstarted : ∀ pulses, link.Metered pulses → pulses rig.device = pulses device := by
    intro pulses hmetered
    have h := pulses_start hmetered config bus device
    rw [hstart] at h
    exact h
  by_cases hn : n < config.cycleBudget.toNat
  · obtain ⟨notes, hpolls, hrun⟩ :=
      run_of_haltsAt_lt hstores hstart hhalts hpositive hn journal
    rw [hrun, if_pos hn]
    refine ⟨rfl, ?_⟩
    intro pulses hmetered
    show pulses (link.getOutputs last.device).2 = _
    rw [hmetered.getOutputs, pulses_polls hmetered hpolls, hstarted pulses hmetered]
    omega
  · obtain ⟨notes, stuck, hpolls, hrun⟩ :=
      run_of_haltsAt_ge hstores hstart hhalts hpositive (Nat.not_lt.mp hn) journal
    rw [hrun, if_neg hn]
    refine ⟨rfl, ?_⟩
    intro pulses hmetered
    rw [pulses_polls hmetered hpolls, hstarted pulses hmetered]
    omega

/-- A case that asks for nothing. -/
def idleCase : Case :=
  { name := "idle" }

/-- A device that reports a halt behind its first clock pulse. -/
def onePulse : Scripted.Tape :=
  { outputs := [0], afterwards := some 0x800 }

/-- The device passes under a budget of two pulses, of which it needs one. -/
theorem run_budget_one_pulse :
    ∃ bus rig opening last, idleCase.stores { cycleBudget := 2 } = .ok bus
      ∧ Scripted.link.start { cycleBudget := 2 } bus onePulse = ⟨.ok (), rig, opening⟩
      ∧ HaltsAt (Rig.stopped Scripted.link) (Rig.polled Scripted.link) rig 1 last
      ∧ (Scripted.link.run { cycleBudget := 2 } idleCase onePulse .silent).verdict
        = .ok ⟨1, #[], {}⟩
      ∧ (Scripted.link.run { cycleBudget := 2 } idleCase onePulse .silent).device.made.step
        = 1 := by
  obtain ⟨bus, hstores⟩ := idleCase.exists_stores_of_le { cycleBudget := 2 } (Nat.zero_le _)
    (Nat.zero_le _)
  obtain ⟨program, data, -, -, rfl⟩ := Case.exists_of_stores hstores
  obtain ⟨-, hbudget⟩ := run_budget Scripted.link { cycleBudget := 2 } idleCase onePulse .silent
  refine ⟨_, _, _, _, hstores, rfl, haltsAt_iff.mpr ⟨rfl, _, .single rfl rfl⟩, ?_⟩
  obtain ⟨hverdict, hpulses⟩ := hbudget _ _ _ 1 _ hstores rfl
    (haltsAt_iff.mpr ⟨rfl, _, .single rfl rfl⟩) (Nat.le_refl 1)
  exact ⟨hverdict, hpulses _ metered_scripted⟩

/-- The same device is not graded under a budget of one pulse, and its clock is pulsed under a
budget of none. -/
theorem not_graded_within_budget :
    ∃ bus rig opening last, idleCase.stores { cycleBudget := 1 } = .ok bus
      ∧ Scripted.link.start { cycleBudget := 1 } bus onePulse = ⟨.ok (), rig, opening⟩
      ∧ HaltsAt (Rig.stopped Scripted.link) (Rig.polled Scripted.link) rig 1 last
      ∧ (Scripted.link.run { cycleBudget := 1 } idleCase onePulse .silent).verdict
        = .error (.timeout 1)
      ∧ (Scripted.link.run { cycleBudget := 0 } idleCase onePulse .silent).device.made.step
        = 1 := by
  obtain ⟨bus, hstores⟩ := idleCase.exists_stores_of_le { cycleBudget := 1 } (Nat.zero_le _)
    (Nat.zero_le _)
  have hnone : idleCase.stores { cycleBudget := 0 } = .ok bus := hstores
  obtain ⟨program, data, -, -, rfl⟩ := Case.exists_of_stores hstores
  refine ⟨_, _, _, _, hstores, rfl, haltsAt_iff.mpr ⟨rfl, _, .single rfl rfl⟩, ?_, ?_⟩
  · rw [Link.run, hstores]
    rfl
  · rw [Link.run, hnone]
    rfl

end Serial

end TapeBench
