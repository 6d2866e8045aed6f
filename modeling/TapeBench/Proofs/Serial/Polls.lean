import TapeBench.Proofs.Cycles
import TapeBench.Serial.Run

/-!
# `TapeBench.Proofs.Serial.Polls`: sequences of polls and the loop that makes them

A poll that finds the device running is a cycle of the serial link, and a poll that finds it halted
ends the run. So `Polls link n rig notes last` is a sequence of cycles: `n` polls lead from `rig` to
`last`, each finds the device running, and none faults.

* `pollsUntilHalted_of_polls`: a sequence of polls can be taken off the front of a run.
* `pollsUntilHalted_of_lt`: a sequence longer than a run lets the run end out of budget.
* `pollsUntilHalted_cases`: every run is such a sequence with one of the three ends behind it.
* `run_of_polls_halted`, `run_of_polls_stopped`, `verdict_of_polls_faulted`, `verdict_of_polls_lt`:
  the end of a run, from its polls.
* `exists_stopped_of_passed`: the polls of a run that passed.

The budget is looked at behind each poll, so a run makes one poll even if its budget is zero.
-/

set_option autoImplicit false

namespace TapeBench.Serial

variable {σ : Type}

namespace Rig

/-- The next poll finds the device halted. -/
def stopped (link : Link σ) (rig : Rig σ) : Bool :=
  match (rig.poll link).result with
  | .ok .halted => true
  | _ => false

/-- One poll, without what it found. -/
def polled (link : Link σ) (rig : Rig σ) : Step (Rig σ) Unit :=
  match rig.poll link with
  | ⟨.ok _, rig, notes⟩ => ⟨.ok (), rig, notes⟩
  | ⟨.error fault, rig, notes⟩ => ⟨.error fault, rig, notes⟩

/-- A clock pulse is counted. -/
theorem steps_pulse {link : Link σ} {phase : Phase} {rig last : Rig σ} {found : Polled}
    {notes : List Note} (h : rig.pulse link phase = ⟨.ok found, last, notes⟩) :
    last.host.steps = rig.host.steps + 1 := by
  obtain ⟨host, device, bus⟩ := rig
  simp only [pulse] at h
  split at h <;> cases h
  rfl

/-- Entering a phase pulses no clock. The pulse comes behind it, when the register has been written.
-/
theorem steps_enter {phase : Phase} {value : UInt8} {rig last : Rig σ} {notes : List Note}
    (h : rig.enter phase value = ⟨.ok (), last, notes⟩) : last.host.steps = rig.host.steps := by
  obtain ⟨host, device, bus⟩ := rig
  cases phase with
  | execute =>
      simp only [enter, execute] at h
      split at h <;> cases h
      rfl
  | idle | opcode | addressHigh | addressLow =>
      cases h
      rfl

/-- Writing the input register pulses no clock. -/
theorem steps_sendInputs {link : Link σ} {rig last : Rig σ} {notes : List Note}
    (h : rig.sendInputs link = ⟨.ok (), last, notes⟩) : last.host.steps = rig.host.steps := by
  obtain ⟨host, device, bus⟩ := rig
  simp only [sendInputs, Link.call] at h
  split at h <;> cases h
  rfl

/-- Serving an observation pulses the clock once, if nothing fails on the way. -/
theorem steps_exchange {link : Link σ} {phase : Phase} {transition : Transition} {value : UInt8}
    {rig last : Rig σ} {found : Polled} {notes : List Note}
    (h : rig.exchange link phase transition value = ⟨.ok found, last, notes⟩) :
    last.host.steps = rig.host.steps + 1 := by
  obtain ⟨host, device, bus⟩ := rig
  have hlatch : (host.latch phase value).steps = host.steps := by cases phase <;> rfl
  simp only [exchange] at h
  cases transition with
  | held => rw [steps_pulse h, hlatch]
  | entered =>
      -- Only the last of the three calls pulses the clock.
      obtain ⟨_, sent, _, _, hfirst, hpulse, _⟩ := Step.of_andThen_ok h
      obtain ⟨_, entered, _, _, henter, hsend, _⟩ := Step.of_andThen_ok hfirst
      rw [steps_pulse hpulse, steps_sendInputs hsend, steps_enter henter, hlatch]

/-- A poll that finds the device running pulses the clock once. -/
theorem steps_poll {link : Link σ} {rig last : Rig σ} {phase : Phase} {notes : List Note}
    (h : rig.poll link = ⟨.ok (.running phase), last, notes⟩) :
    last.host.steps = rig.host.steps + 1 := by
  obtain ⟨host, device, bus⟩ := rig
  simp only [poll] at h
  split at h
  · cases h
  · split at h
    · cases h
    · split at h
      · cases h
      · rw [steps_exchange h]

/-- Pulsing the clock tells the phase that was served. -/
theorem found_of_pulse {link : Link σ} {phase : Phase} {rig last : Rig σ} {found : Polled}
    {notes : List Note} (h : rig.pulse link phase = ⟨.ok found, last, notes⟩) :
    found = .running phase := by
  obtain ⟨host, device, bus⟩ := rig
  simp only [pulse] at h
  split at h <;> cases h
  rfl

/-- Serving an observation tells the phase that was served, as it was observed and not as the device
may have moved on since. -/
theorem found_of_exchange {link : Link σ} {phase : Phase} {transition : Transition} {value : UInt8}
    {rig last : Rig σ} {found : Polled} {notes : List Note}
    (h : rig.exchange link phase transition value = ⟨.ok found, last, notes⟩) :
    found = .running phase := by
  obtain ⟨host, device, bus⟩ := rig
  simp only [exchange] at h
  cases transition with
  | held => exact found_of_pulse h
  | entered =>
      obtain ⟨_, _, _, _, _, hpulse, _⟩ := Step.of_andThen_ok h
      exact found_of_pulse hpulse

/-- A poll that finds the device halted only reads the output register. No pulse is wasted on a
device that has stopped, and the phase in the register is not even looked at. -/
theorem poll_of_found_halted {link : Link σ} {rig last : Rig σ} {notes : List Note}
    (h : rig.poll link = ⟨.ok .halted, last, notes⟩) :
    last = ⟨rig.host, (link.getOutputs rig.device).2, rig.bus⟩ ∧ notes = [] := by
  obtain ⟨host, device, bus⟩ := rig
  simp only [poll] at h
  split at h
  · cases h
  · rename_i bits after hread
    split at h
    · cases h
      exact ⟨by rw [hread], rfl⟩
    · split at h
      · cases h
      · cases found_of_exchange h

end Rig

/-- `n` polls lead from one rig to another, and each finds the device running. -/
abbrev Polls (link : Link σ) : Nat → Rig σ → List Note → Rig σ → Prop :=
  Cycled (Rig.stopped link) (Rig.polled link)

variable {link : Link σ} {n : Nat} {rig middle last : Rig σ} {notes more : List Note}

/-- A poll that finds the device running does not find it halted. -/
theorem stopped_of_running {phase : Phase}
    (h : rig.poll link = ⟨.ok (.running phase), last, notes⟩) : rig.stopped link = false := by
  rw [Rig.stopped, h]

/-- Such a poll is a cycle that gives a value. -/
theorem polled_of_running {phase : Phase}
    (h : rig.poll link = ⟨.ok (.running phase), last, notes⟩) :
    rig.polled link = ⟨.ok (), last, notes⟩ := by
  rw [Rig.polled, h]

/-- A poll that faults does not find the device halted either. -/
theorem stopped_of_error {fault : Fault} (h : rig.poll link = ⟨.error fault, last, notes⟩) :
    rig.stopped link = false := by
  rw [Rig.stopped, h]

/-- Such a poll is a cycle that faults. -/
theorem polled_of_error {fault : Fault} (h : rig.poll link = ⟨.error fault, last, notes⟩) :
    rig.polled link = ⟨.error fault, last, notes⟩ := by
  rw [Rig.polled, h]

/-- What a poll in a sequence found: the device running. A sequence does not go on behind a halt,
and a poll that faults is not part of one. -/
theorem exists_running_of_polled (running : rig.stopped link = false)
    (taken : rig.polled link = ⟨.ok (), last, notes⟩) :
    ∃ phase, rig.poll link = ⟨.ok (.running phase), last, notes⟩ := by
  obtain ⟨result, state, found, hpoll⟩ :
      ∃ result state found, rig.poll link = ⟨result, state, found⟩ := ⟨_, _, _, rfl⟩
  rw [Rig.stopped, hpoll] at running
  rw [Rig.polled, hpoll] at taken
  rw [hpoll]
  match result with
  | .ok (.running phase) =>
      cases taken
      exact ⟨phase, rfl⟩
  | .ok .halted => cases running
  | .error fault => cases taken

/-- A rig that has stopped is one whose next poll finds the device halted. This lets the loop of
polls be read as a loop over cycles, with its test in front of the cycle. -/
theorem stopped_iff :
    rig.stopped link = true
      ↔ rig.poll link = ⟨.ok .halted, ⟨rig.host, (link.getOutputs rig.device).2, rig.bus⟩, []⟩ := by
  obtain ⟨result, state, found, hpoll⟩ :
      ∃ result state found, rig.poll link = ⟨result, state, found⟩ := ⟨_, _, _, rfl⟩
  rw [Rig.stopped, hpoll]
  match result with
  | .ok .halted =>
      obtain ⟨rfl, rfl⟩ := Rig.poll_of_found_halted hpoll
      simp
  | .ok (.running phase) => simp
  | .error fault => simp

namespace Polls

/-- One poll that finds the device running. -/
theorem single {phase : Phase} (h : rig.poll link = ⟨.ok (.running phase), last, notes⟩) :
    Polls link 1 rig notes last :=
  Cycled.single (stopped_of_running h) (polled_of_running h)

/-- Such a poll in front of others. -/
theorem cons {phase : Phase} (h : rig.poll link = ⟨.ok (.running phase), middle, notes⟩)
    (rest : Polls link n middle more last) : Polls link (n + 1) rig (notes ++ more) last :=
  Cycled.cons (stopped_of_running h) (polled_of_running h) rest

/-- A sequence of polls can begin with another poll that leads to the same rig with other notes in
front. This joins two descriptions of one phase that differ in what the first poll of it logs. -/
theorem of_poll_eq {other : Rig σ} {phase phase' : Phase} {front : List Note}
    (hother : other.poll link = ⟨.ok (.running phase'), middle, notes⟩)
    (h : rig.poll link = ⟨.ok (.running phase), middle, front ++ notes⟩)
    (polls : Polls link (n + 1) other more last) :
    Polls link (n + 1) rig (front ++ more) last := by
  cases polls with
  | cons running taken rest =>
      rw [polled_of_running hother] at taken
      cases taken
      rw [← List.append_assoc]
      exact cons h rest

end Polls

/-- A sequence of polls pulses the clock as often as it is long. -/
theorem steps_polls (h : Polls link n rig notes last) :
    last.host.steps = rig.host.steps + n := by
  induction h with
  | refl => rfl
  | cons running taken _ ih =>
      obtain ⟨phase, hpoll⟩ := exists_running_of_polled running taken
      rw [ih, Rig.steps_poll hpoll]
      omega

/-! ### The loop -/

/-- A sequence of polls within the budget is the beginning of the run, which goes on with the budget
that is left. -/
theorem pollsUntilHalted_of_polls (h : Polls link n rig notes last) {spare : Nat}
    (hn : n ≤ spare) (journal : Journal) :
    link.pollsUntilHalted spare rig journal
      = link.pollsUntilHalted (spare - n) last (journal.record notes) := by
  -- Induction on the sequence: each poll is taken off the spare budget and recorded on the way.
  induction h generalizing spare journal with
  | refl => rfl
  | @cons n rig middle last notes more running taken rest ih =>
      obtain ⟨phase, hpoll⟩ := exists_running_of_polled running taken
      obtain ⟨spare, rfl⟩ := Nat.exists_eq_succ_of_ne_zero (show spare ≠ 0 by omega)
      rw [Nat.succ_eq_add_one, Link.pollsUntilHalted, hpoll, Journal.record_append]
      simp only
      rw [ih (by omega)]
      congr 1
      omega

/-- A sequence of polls that is longer than the spare budget ends the run behind one more poll than
the spare budget allows. -/
theorem pollsUntilHalted_of_lt (h : Polls link n rig notes last) {spare : Nat} (hn : spare < n)
    (journal : Journal) :
    ∃ stuck front, Polls link (spare + 1) rig front stuck
      ∧ link.pollsUntilHalted spare rig journal = (.exhausted, stuck, journal.record front) := by
  -- The loop polls before it looks at the spare budget, so it is one poll ahead of it.
  induction spare generalizing n rig notes journal with
  | zero =>
      cases h with
      | refl => omega
      | cons running taken rest =>
          obtain ⟨phase, hpoll⟩ := exists_running_of_polled running taken
          exact ⟨_, _, .single hpoll, by rw [Link.pollsUntilHalted, hpoll]⟩
  | succ spare ih =>
      cases h with
      | refl => omega
      | @cons n _ middle _ notes more running taken rest =>
          obtain ⟨phase, hpoll⟩ := exists_running_of_polled running taken
          obtain ⟨stuck, front, hfront, hrun⟩ := ih rest (by omega) (journal.record notes)
          refine ⟨stuck, notes ++ front, Polls.cons hpoll hfront, ?_⟩
          rw [Link.pollsUntilHalted, hpoll, Journal.record_append]
          exact hrun

/-- A poll that finds the device halted ends the loop. -/
theorem pollsUntilHalted_halted (h : rig.poll link = ⟨.ok .halted, last, notes⟩) (spare : Nat)
    (journal : Journal) :
    link.pollsUntilHalted spare rig journal = (.halted, last, journal.record notes) := by
  rw [Link.pollsUntilHalted, h]

/-- So does a poll that faults, with its fault. -/
theorem pollsUntilHalted_faulted {fault : Fault} (h : rig.poll link = ⟨.error fault, last, notes⟩)
    (spare : Nat) (journal : Journal) :
    link.pollsUntilHalted spare rig journal = (.faulted fault, last, journal.record notes) := by
  rw [Link.pollsUntilHalted, h]

/-- Every run of the loop is a sequence of polls behind which a poll finds the device halted, the
spare budget is used up, or one more poll faults. -/
theorem pollsUntilHalted_cases (link : Link σ) (spare : Nat) (rig : Rig σ) (journal : Journal) :
    ∃ n last notes, Polls link n rig notes last
      ∧ ((n ≤ spare ∧ ∃ stuck more, last.poll link = ⟨.ok .halted, stuck, more⟩
          ∧ link.pollsUntilHalted spare rig journal
            = (.halted, stuck, journal.record (notes ++ more)))
        ∨ (n = spare + 1
          ∧ link.pollsUntilHalted spare rig journal = (.exhausted, last, journal.record notes))
        ∨ (n ≤ spare ∧ ∃ fault stuck more, last.poll link = ⟨.error fault, stuck, more⟩
          ∧ link.pollsUntilHalted spare rig journal
            = (.faulted fault, stuck, journal.record (notes ++ more)))) := by
  -- Induction along the loop: only a poll that finds the device running leads on to another one.
  fun_induction Link.pollsUntilHalted link spare rig journal with
  | case1 spare rig journal fault stuck more hpoll =>
      exact ⟨0, rig, [], .refl rig,
        .inr (.inr ⟨Nat.zero_le spare, fault, stuck, more, hpoll, rfl⟩)⟩
  | case2 spare rig journal stuck more hpoll =>
      exact ⟨0, rig, [], .refl rig, .inl ⟨Nat.zero_le spare, stuck, more, hpoll, rfl⟩⟩
  | case3 rig journal phase last notes hpoll =>
      exact ⟨1, last, notes, .single hpoll, .inr (.inl ⟨rfl, rfl⟩)⟩
  | case4 rig journal phase middle front hpoll spare ih =>
      obtain ⟨n, last, back, hpolls, hend⟩ := ih
      refine ⟨n + 1, last, front ++ back, .cons hpoll hpolls, ?_⟩
      simp only [List.append_assoc, Journal.record_append journal front, Nat.succ_eq_add_one,
        Nat.add_le_add_iff_right, Nat.add_right_cancel_iff]
      exact hend

/-! ### Runs -/

/-- A run begins before the first clock pulse. -/
theorem steps_of_start {link : Link σ} {config : Config} {bus : Peripheral} {device : σ}
    {rig : Rig σ} {opening : List Note}
    (h : link.start config bus device = ⟨.ok (), rig, opening⟩) : rig.host.steps = 0 := by
  rw [Link.start] at h
  obtain ⟨_, released, _, _, hpower, henable, _⟩ := Step.of_andThen_ok h
  generalize link.powerUp config.serialResetHoldNs device = power at hpower
  obtain ⟨result, next, notes⟩ := power
  cases hpower
  simp only [Rig.enable] at henable
  exact Rig.steps_sendInputs henable

section Runs

variable {config : Config} {case : Case} {bus : Peripheral} {device : σ} {opening : List Note}

/-- A run that is still going when its budget is used up times out. It has made one poll at least,
so under a budget of zero its verdict tells of one. -/
theorem verdict_of_polls_lt (hstores : case.stores config = .ok bus)
    (hstart : link.start config bus device = ⟨.ok (), rig, opening⟩) (hsteps : rig.host.steps = 0)
    (h : Polls link n rig notes last) (hn : max config.cycleBudget.toNat 1 ≤ n)
    (journal : Journal) :
    (link.run config case device journal).verdict
      = .error (.timeout (max config.cycleBudget.toNat 1)) := by
  have hspare : config.cycleBudget.toNat - 1 + 1 = max config.cycleBudget.toNat 1 := by omega
  obtain ⟨stuck, front, hfront, hrun⟩ := pollsUntilHalted_of_lt h
    (show config.cycleBudget.toNat - 1 < n by omega)
    ((journal.record [.message (.runStarted case.name .serial)]).record opening)
  rw [Link.run, hstores]
  simp only [hstart, hrun, steps_polls hfront, hsteps, hspare, Nat.zero_add]

/-- A run that halts behind some polls is graded if the budget allows one more, which is the poll
that sees the halt. -/
theorem run_of_polls_halted (hstores : case.stores config = .ok bus)
    (hstart : link.start config bus device = ⟨.ok (), rig, opening⟩) (hsteps : rig.host.steps = 0)
    (h : Polls link n rig notes last) (hpositive : n ≠ 0)
    (hlast : last.poll link = ⟨.ok .halted, last, []⟩) (hn : n < config.cycleBudget.toNat)
    (journal : Journal) :
    link.run config case device journal
      = case.conclude n last.bus.channel.output last.bus.tally last.device
          (((journal.record [.message (.runStarted case.name .serial)]).record opening).record
            notes) := by
  have hcount : last.host.steps = n := by rw [steps_polls h, hsteps, Nat.zero_add]
  rw [Link.run, hstores]
  simp only [hstart, pollsUntilHalted_of_polls h (show n ≤ config.cycleBudget.toNat - 1 by omega),
    pollsUntilHalted_halted hlast, Journal.record_nil, hcount, if_neg hpositive]

/-- A run that finds the device halted behind some polls is graded there if the clock was pulsed.
Otherwise the device was halted from the start, and the run says so instead. -/
theorem run_of_polls_stopped (hstores : case.stores config = .ok bus)
    (hstart : link.start config bus device = ⟨.ok (), rig, opening⟩)
    (h : Polls link n rig notes last) (hpulsed : last.host.steps ≠ 0)
    (hlast : last.stopped link = true) (hn : n ≤ config.cycleBudget.toNat - 1)
    (journal : Journal) :
    link.run config case device journal
      = case.conclude last.host.steps last.bus.channel.output last.bus.tally
          (link.getOutputs last.device).2
          (((journal.record [.message (.runStarted case.name .serial)]).record opening).record
            notes) := by
  rw [Link.run, hstores]
  simp only [hstart, pollsUntilHalted_of_polls h hn, pollsUntilHalted_halted (stopped_iff.mp hlast),
    Journal.record_nil, if_neg hpulsed]

/-- A run that passed found the device halted within its budget, and not before the first clock
pulse. No other end of a run is a report. -/
theorem exists_stopped_of_passed (hstores : case.stores config = .ok bus)
    (hstart : link.start config bus device = ⟨.ok (), rig, opening⟩) {journal : Journal}
    {report : Report} (hpassed : (link.run config case device journal).verdict = .ok report) :
    ∃ n last notes, Polls link n rig notes last ∧ last.host.steps ≠ 0
      ∧ last.stopped link = true ∧ n ≤ config.cycleBudget.toNat - 1 := by
  obtain ⟨n, last, notes, hpolls, hend⟩ := pollsUntilHalted_cases link
    (config.cycleBudget.toNat - 1) rig
    ((journal.record [.message (.runStarted case.name .serial)]).record opening)
  rw [Link.run, hstores] at hpassed
  simp only [hstart] at hpassed
  -- A timeout and a fault are no report, and neither is a halt in front of the first pulse.
  rcases hend with ⟨hn, stuck, more, hpoll, hloop⟩ | ⟨-, hloop⟩ | ⟨-, _, _, _, -, hloop⟩
  · obtain ⟨rfl, rfl⟩ := Rig.poll_of_found_halted hpoll
    rw [hloop] at hpassed
    refine ⟨n, last, notes, hpolls, ?_, stopped_iff.mpr hpoll, hn⟩
    intro hzero
    simp only [hzero, if_true] at hpassed
    cases hpassed
  · rw [hloop] at hpassed
    cases hpassed
  · rw [hloop] at hpassed
    cases hpassed

/-- A run whose poll behind some others faults ends with that fault if the budget allows it. -/
theorem verdict_of_polls_faulted (hstores : case.stores config = .ok bus)
    (hstart : link.start config bus device = ⟨.ok (), rig, opening⟩)
    (h : Polls link n rig notes last) {fault : Fault} {stuck : Rig σ}
    (hlast : last.poll link = ⟨.error fault, stuck, more⟩) (hn : n < config.cycleBudget.toNat)
    (journal : Journal) :
    (link.run config case device journal).verdict = .error fault := by
  rw [Link.run, hstores]
  simp only [hstart, pollsUntilHalted_of_polls h (show n ≤ config.cycleBudget.toNat - 1 by omega),
    pollsUntilHalted_faulted hlast]

end Runs

end TapeBench.Serial
