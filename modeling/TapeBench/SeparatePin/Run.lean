import TapeBench.SeparatePin.Driver

/-!
# `TapeBench.SeparatePin.Run`: runs over separate pins

* `Device.run`: loads the program of a case over the load pins, resets the device, takes cycles
  until it halts, and grades the output.

The device owns its data memory, so a data image cannot reach it. The run says so in its log and
goes on without the image.
-/

set_option autoImplicit false

namespace TapeBench.SeparatePin

open Memory (Rom)

/-- The log line for a data image that cannot reach the device, if the case brings one. -/
def imageIgnored (case : Case) : List Note :=
  if case.dataImage.isEmpty then
    []
  else
    [.message (.dataImageIgnored case.name case.dataImage.size)]

/-- Runs `case` on `device`. -/
def Device.run {σ : Type} (pins : Device σ) (config : Config) (case : Case) (device : σ)
    (journal : Journal) : TapeBench.Run σ :=
  let journal := journal.record [.message (.runStarted case.name .separatePin)]
  match Rom.load case.program with
  | .error fault => ⟨.error fault, device, journal⟩
  | .ok program =>
    let journal := journal.record (imageIgnored case)
    let (device, notes) :=
      pins.loadProgram config.settleNs program (pins.setClock false device)
    let journal := journal.record notes
    -- The reset comes behind the load, so that the first cycle begins at address zero.
    let (device, notes) := pins.powerUp config.resetWindowNs (pins.setInVal 0 device)
    let journal := journal.record notes
    if pins.halted device then
      ⟨.error .zeroCycle, device, journal⟩
    else
      let driver : Driver := { settleNs := config.settleNs }
      let channel : Channel := .ofInput case.input (case.policy config .separatePin)
      match cyclesUntilHalted (fun rig => pins.halted rig.device) (Rig.cycle pins)
          config.cycleBudget.toNat ⟨driver, device, channel⟩ journal with
      | (.faulted fault, rig, journal) => ⟨.error fault, rig.device, journal⟩
      | (.exhausted, rig, journal) => ⟨.error (.timeout rig.driver.cycles), rig.device, journal⟩
      | (.halted, rig, journal) =>
        case.conclude rig.driver.cycles rig.channel.output rig.driver.tally rig.device journal

end TapeBench.SeparatePin
