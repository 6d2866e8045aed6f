import TapeBench.Addressed.Driver

/-!
# `TapeBench.Addressed.Run`: runs over the addressed bus

* `Device.run`: loads a case, resets the device, takes cycles until it halts, and grades the
  output.

A case whose images do not fit is refused before the device is touched. A device that reports a
halt right after reset did not run, and no output can make up for that.
-/

set_option autoImplicit false

namespace TapeBench.Addressed

/-- Runs `case` on `device`. -/
def Device.run {σ : Type} (pins : Device σ) (config : Config) (case : Case) (device : σ)
    (journal : Journal) : TapeBench.Run σ :=
  let journal := journal.record [.message (.runStarted case.name .addressed)]
  match case.stores config with
  | .error fault => ⟨.error fault, device, journal⟩
  | .ok bus =>
    let (device, notes) := pins.powerUp config.resetWindowNs (pins.setValIn 0 device)
    let journal := journal.record notes
    -- Otherwise a device that never ran could pass wherever no output is expected.
    if pins.halted device then
      ⟨.error .zeroCycle, device, journal⟩
    else
      let driver : Driver := { settleNs := config.settleNs }
      match cyclesUntilHalted (fun rig => pins.halted rig.device) (Rig.cycle pins)
          config.cycleBudget.toNat ⟨driver, device, bus⟩ journal with
      | (.faulted fault, rig, journal) => ⟨.error fault, rig.device, journal⟩
      | (.exhausted, rig, journal) => ⟨.error (.timeout rig.driver.cycles), rig.device, journal⟩
      | (.halted, rig, journal) =>
        case.conclude rig.driver.cycles rig.bus.channel.output rig.bus.tally rig.device journal

end TapeBench.Addressed
