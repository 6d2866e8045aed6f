import TapeBench.Proofs.Serial.Polls
import TapeBench.Proofs.Serial.Register
import TapeBench.Proofs.Serial.Transfers
import TapeBench.Serial.Chip

/-!
# `TapeBench.Proofs.Serial.Pulses`: one phase of the chip, seen as often as its divider says

A chip that divides its clock shows each phase for as many polls as its divider says. The first of
them enters the phase; the others hold it, latch the same byte again and change nothing but the
prescaler. So the phase as a whole is what entering it does, with one tick behind it.

* `poll_held`, `poll_entered`: one poll of the chip.
* `polls_held`: the polls of a phase that the host has seen already, up to the next tick.
* `polls_entered`: the polls of a phase that is new to the host, up to the next tick.
-/

set_option autoImplicit false

namespace TapeBench.Serial

namespace Chip

/-- What the chip logs at a tick. -/
def tickMessages (chip : Chip) : List Message :=
  if chip.coreAdvances then chip.core.edgeMessages chip.coreInput else []

variable {chip : Chip}

/-- No chip divides its clock by zero. -/
theorem divider_pos (divider : Nat) : 0 < (withDivider divider).divider :=
  Nat.lt_of_lt_of_le Nat.one_pos (Nat.le_max_right divider 1)

/-- A pulse before the divider is reached only moves the prescaler. -/
theorem pulse_of_lt (hawake : chip.awake = true) (h : chip.prescale + 1 < chip.divider) :
    chip.pulse = { chip with prescale := chip.prescale + 1 } ∧ chip.pulseMessages = [] := by
  have hdivider : ¬chip.divider ≤ chip.prescale + 1 := Nat.not_le.mpr h
  simp [pulse, pulseMessages, hawake, hdivider]

/-- The pulse that reaches the divider is a tick. -/
theorem pulse_of_le (hawake : chip.awake = true) (h : chip.divider ≤ chip.prescale + 1) :
    chip.pulse = tick { chip with prescale := 0 } ∧ chip.pulseMessages = chip.tickMessages := by
  simp [pulse, pulseMessages, tickMessages, hawake, h]

/-- A chip that takes notice of its clock has not stopped. -/
theorem running_of_awake (hawake : chip.awake = true) : chip.core.halted = false := by
  simp only [awake, Bool.and_eq_true, Bool.not_eq_true'] at hawake
  exact hawake.2

end Chip

open Chip (link)

variable {host : Host} {chip : Chip} {bus : Peripheral}

/-- The host reads from the output register what the chip has put there. -/
theorem ofBits_outputs (chip : Chip) :
    OutputRegister.ofBits chip.outputs.toBits = ⟨chip.busOut, chip.phase.state, chip.core.halted⟩ :=
  OutputRegister.ofBits_toBits chip.busOut chip.phase chip.core.halted

/-- A poll that finds the chip stopped changes nothing. -/
theorem poll_halted (h : chip.core.halted = true) :
    (⟨host, chip, bus⟩ : Rig Chip).poll link = ⟨.ok .halted, ⟨host, chip, bus⟩, []⟩ := by
  simp only [Rig.poll, link, ofBits_outputs, h, if_true]
  rfl

/-- A poll that finds the phase of the poll before latches its byte and pulses the clock. -/
theorem poll_held (hrunning : chip.core.halted = false) (hphase : host.phase = chip.phase) :
    (⟨host, chip, bus⟩ : Rig Chip).poll link
      = ⟨.ok (.running chip.phase),
          ⟨{ host.latch chip.phase chip.busOut with
              phase := chip.phase, steps := (host.latch chip.phase chip.busOut).steps + 1 },
            chip.pulse, bus⟩,
          chip.pulseMessages.map Note.message⟩ := by
  simp [Rig.poll, link, ofBits_outputs, hrunning, Host.observe, hphase, Phase.observe,
    Rig.exchange, Rig.pulse, Link.call, Step.done]

/-- No phase enters itself. -/
theorem ne_of_enters {phase next : Phase} (h : phase.enters next = true) : phase ≠ next := by
  rintro rfl
  cases phase <;> cases h

/-- A poll that finds a new phase serves it, writes the input register and pulses the clock. In the
chip the write comes before the pulse, so that the pulse already sees it. -/
theorem poll_entered (hrunning : chip.core.halted = false)
    (henters : host.phase.enters chip.phase = true) {served : Host} {next : Peripheral}
    {notes : List Note}
    (hserved : Rig.enter chip.phase chip.busOut
        (⟨host.latch chip.phase chip.busOut, chip, bus⟩ : Rig Chip)
      = ⟨.ok (), ⟨served, chip, next⟩, notes⟩) :
    (⟨host, chip, bus⟩ : Rig Chip).poll link
      = ⟨.ok (.running chip.phase),
          ⟨{ served with phase := chip.phase, steps := served.steps + 1 },
            Chip.pulse { chip with inputs := served.inputs }, next⟩,
          notes ++ (Chip.pulseMessages { chip with inputs := served.inputs }).map
            Note.message⟩ := by
  have hnew := ne_of_enters henters
  simp [Rig.poll, link, ofBits_outputs, hrunning, Host.observe, hnew, henters, Phase.observe,
    Rig.exchange, hserved, Step.andThen, Rig.sendInputs, Step.within, Rig.pulse, Link.call,
    Step.done]

/-- If entering a phase faults, so does the poll. -/
theorem poll_faulted (hrunning : chip.core.halted = false)
    (henters : host.phase.enters chip.phase = true) {stuck : Rig Chip} {fault : Fault}
    {notes : List Note}
    (hserved : Rig.enter chip.phase chip.busOut
        (⟨host.latch chip.phase chip.busOut, chip, bus⟩ : Rig Chip)
      = ⟨.error fault, stuck, notes⟩) :
    (⟨host, chip, bus⟩ : Rig Chip).poll link = ⟨.error fault, stuck, notes⟩ := by
  have hnew := ne_of_enters henters
  simp [Rig.poll, link, ofBits_outputs, hrunning, Host.observe, hnew, henters, Phase.observe,
    Rig.exchange, hserved, Step.andThen]

/-- A poll that finds what the host has latched already only pulses the clock. -/
theorem poll_latched (bus : Peripheral) (hrunning : chip.core.halted = false)
    (hphase : host.phase = chip.phase) (hlatched : host.latch chip.phase chip.busOut = host) :
    (⟨host, chip, bus⟩ : Rig Chip).poll link
      = ⟨.ok (.running chip.phase), ⟨{ host with steps := host.steps + 1 }, chip.pulse, bus⟩,
          chip.pulseMessages.map Note.message⟩ := by
  rw [poll_held hrunning hphase, hlatched]
  simp only [← hphase]

/-- The latches do not depend on the number of clock pulses. -/
theorem latch_steps (host : Host) (phase : Phase) (byte : UInt8) (steps : Nat) :
    Host.latch { host with steps } phase byte = { host.latch phase byte with steps } := by
  cases phase <;> rfl

/-- Neither do they depend on the last phase. -/
theorem latch_phase (host : Host) (phase last : Phase) (byte : UInt8) :
    Host.latch { host with phase := last } phase byte
      = { host.latch phase byte with phase := last } := by
  cases phase <;> rfl

/-- The polls that are left of a phase which the host has latched already: the last of them is a
tick of the chip, and the others change nothing. -/
theorem polls_held (bus : Peripheral) {k : Nat} (hawake : chip.awake = true)
    (hphase : host.phase = chip.phase) (hlatched : host.latch chip.phase chip.busOut = host)
    (hleft : chip.prescale + (k + 1) = chip.divider) :
    Polls link (k + 1) ⟨host, chip, bus⟩ (chip.tickMessages.map Note.message)
      ⟨{ host with steps := host.steps + (k + 1) }, Chip.tick { chip with prescale := 0 },
        bus⟩ := by
  -- Induction on the polls that are left; the prescaler counts the others.
  induction k generalizing host chip with
  | zero =>
      have hpoll := poll_latched bus (Chip.running_of_awake hawake) hphase hlatched
      obtain ⟨hpulse, hmessages⟩ := Chip.pulse_of_le hawake (Nat.le_of_eq hleft.symm)
      rw [hpulse, hmessages] at hpoll
      exact .single hpoll
  | succ k ih =>
      have hpoll := poll_latched bus (Chip.running_of_awake hawake) hphase hlatched
      obtain ⟨hpulse, hmessages⟩ := Chip.pulse_of_lt hawake (by omega)
      rw [hpulse, hmessages] at hpoll
      have hstill : Host.latch { host with steps := host.steps + 1 } chip.phase chip.busOut
          = { host with steps := host.steps + 1 } := by
        rw [latch_steps, hlatched]
      let counted : Chip := { chip with prescale := chip.prescale + 1 }
      have hcounted : counted.prescale + (k + 1) = counted.divider := by
        simp only [counted]
        omega
      have hrest := @ih { host with steps := host.steps + 1 } counted hawake hphase hstill hcounted
      have hcount : host.steps + 1 + (k + 1) = host.steps + (k + 1 + 1) := by omega
      simp only [hcount] at hrest
      exact Polls.cons hpoll hrest

/-- The polls of a phase that is new to the host, up to the next tick: what entering the phase
does, and one tick behind it. -/
theorem polls_entered (hawake : chip.awake = true) (hprescale : chip.prescale = 0)
    (hdivider : 0 < chip.divider) (henters : host.phase.enters chip.phase = true) {served : Host}
    {next : Peripheral} {notes : List Note}
    (hserved : Rig.enter chip.phase chip.busOut
        (⟨host.latch chip.phase chip.busOut, chip, bus⟩ : Rig Chip)
      = ⟨.ok (), ⟨served, chip, next⟩, notes⟩)
    (hlatched : served.latch chip.phase chip.busOut = served)
    (henable : served.inputs.enable = true) :
    Polls link chip.divider ⟨host, chip, bus⟩
      (notes ++ (Chip.tickMessages { chip with inputs := served.inputs }).map Note.message)
      ⟨{ served with phase := chip.phase, steps := served.steps + chip.divider },
        Chip.tick { chip with inputs := served.inputs }, next⟩ := by
  have hrunning := Chip.running_of_awake hawake
  have hpoll := poll_entered hrunning henters hserved
  have hseen : Host.latch { served with phase := chip.phase } chip.phase chip.busOut
      = { served with phase := chip.phase } := by
    rw [latch_phase, hlatched]
  have hready : Chip.awake { chip with inputs := served.inputs } = true := by
    simp only [Chip.awake, Bool.and_eq_true] at hawake ⊢
    exact ⟨⟨hawake.1.1, henable⟩, hawake.2⟩
  obtain ⟨core, phase, latched, inputs, reset, divider, prescale, ticks⟩ := chip
  obtain rfl : prescale = 0 := hprescale
  obtain ⟨k, rfl⟩ : ∃ k, divider = k + 1 := Nat.exists_eq_succ_of_ne_zero (Nat.ne_of_gt hdivider)
  -- Behind its first poll the phase is one that the host has latched already.
  let entered : Chip :=
    { core, phase, latched, inputs := served.inputs, reset, divider := k + 1, ticks }
  have hfirst : (⟨{ served with phase }, entered, next⟩ : Rig Chip).poll link
      = ⟨.ok (.running phase), ⟨{ served with phase, steps := served.steps + 1 }, entered.pulse,
          next⟩, entered.pulseMessages.map Note.message⟩ :=
    poll_latched next hrunning rfl hseen
  have hpolls : Polls link (k + 1) ⟨{ served with phase }, entered, next⟩
      (entered.tickMessages.map Note.message)
      ⟨{ served with phase, steps := served.steps + (k + 1) }, entered.tick, next⟩ :=
    polls_held next hready rfl hseen (Nat.zero_add _)
  exact Polls.of_poll_eq hfirst hpoll hpolls

end TapeBench.Serial
