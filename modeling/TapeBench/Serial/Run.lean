import TapeBench.Cycles
import TapeBench.Serial.Host

/-!
# `TapeBench.Serial.Run`: runs over the serial link

* `Link.run`: resets the device, enables it, polls until it halts, and grades the output.

A device that reports a halt at the first poll did not run. The budget is looked at behind each
poll, so one clock pulse is allowed whatever the budget says, and a device that needs the whole
budget is out of time before the poll that would see its halt.
-/

set_option autoImplicit false

namespace TapeBench.Serial

namespace Link

variable {σ : Type}

/-- Holds the device in reset and releases it. -/
def powerUp (link : Link σ) (holdNs : Nat) (device : σ) : Step σ Unit :=
  (Link.call (link.setReset true device) []).andThen fun _ device =>
    Link.call (link.setReset false (link.hold holdNs device)) []

/-- Polls until the device reports a halt, at most `spare + 1` times, and adds the notes of every
poll to the journal. -/
def pollsUntilHalted (link : Link σ) (spare : Nat) (rig : Rig σ) (journal : Journal) :
    Stop × Rig σ × Journal :=
  match rig.poll link with
  | ⟨.error fault, rig, notes⟩ => (.faulted fault, rig, journal.record notes)
  | ⟨.ok .halted, rig, notes⟩ => (.halted, rig, journal.record notes)
  | ⟨.ok (.running _), rig, notes⟩ =>
    match spare with
    | 0 => (.exhausted, rig, journal.record notes)
    | spare + 1 => pollsUntilHalted link spare rig (journal.record notes)

/-- Resets and enables the device. -/
def start (link : Link σ) (config : Config) (bus : Peripheral) (device : σ) :
    Step (Rig σ) Unit :=
  ((link.powerUp config.serialResetHoldNs device).within fun device => ⟨{}, device, bus⟩).andThen
    fun _ rig => rig.enable link

/-- Runs `case` on `device`. -/
def run (link : Link σ) (config : Config) (case : Case) (device : σ) (journal : Journal) :
    TapeBench.Run σ :=
  let journal := journal.record [.message (.runStarted case.name .serial)]
  match case.stores config with
  | .error fault => ⟨.error fault, device, journal⟩
  | .ok bus =>
    match link.start config bus device with
    | ⟨.error fault, rig, notes⟩ => ⟨.error fault, rig.device, journal.record notes⟩
    | ⟨.ok (), rig, notes⟩ =>
      -- The loop polls once before it looks at its budget, so it is given one less.
      match pollsUntilHalted link (config.cycleBudget.toNat - 1) rig (journal.record notes) with
      | (.faulted fault, rig, journal) => ⟨.error fault, rig.device, journal⟩
      | (.exhausted, rig, journal) => ⟨.error (.timeout rig.host.steps), rig.device, journal⟩
      | (.halted, rig, journal) =>
        -- No clock pulse was given, so the device halted without having run.
        if rig.host.steps = 0 then
          ⟨.error .zeroCycle, rig.device, journal⟩
        else
          case.conclude rig.host.steps rig.bus.channel.output rig.bus.tally rig.device journal

end Link

end TapeBench.Serial
