import TapeBench.Proofs.Addressed.Sampling
import TapeBench.Proofs.SeparatePin.Sampling
import TapeBench.Scripted.Device

/-!
# `TapeBench.Proofs.Sampling`: what is sampled is served, once and in order

A driver samples the pins of a device right behind a rising edge, lets the device settle, which may
change every pin, and serves the sample behind the falling edge. Between the two the sample is all
that is left of what the pins showed. No sample is lost or served twice, and none is served late,
however a device behaves and however half cycles and whole ones are mixed.

* `commits_samples`: both drivers, behind every sequence of successful actions.
-/

set_option autoImplicit false

namespace TapeBench

/-- What a driver samples it serves, once and in order. On the addressed bus this holds behind every
sequence of half cycles and whole ones that succeed, on separate pins behind every sequence of
cycles that succeed. The device may show other outputs at any other time: a driver looks at them
once in a cycle, when it has raised the clock line and before it holds the device. -/
theorem commits_samples {σ τ : Type} (bused : Addressed.Device σ)
    (separate : SeparatePin.Device τ) :
    (∀ (start : Addressed.Rig σ) history notes last, start.driver.phase = .low →
        Reaches (Addressed.Drive.act bused.recorded) start.recording history notes last →
          ∃ turns, Addressed.Sampled bused start turns (entries notes) last)
      ∧ ∀ (start : SeparatePin.Rig τ) history notes last,
        Reaches (fun _ : Unit => SeparatePin.Rig.cycle separate.recorded) start.recording history
          notes last →
          ∃ turns, turns.length = history.length
            ∧ SeparatePin.Sampled separate start turns (entries notes) last :=
  ⟨fun _ _ _ _ hlow h => Addressed.exists_sampled hlow h,
    fun _ _ _ _ h => SeparatePin.exists_sampled h⟩

/-- A device that reads a byte, asks for nothing once, and writes a byte. -/
def readThenWrite : Addressed.Rig (Scripted.Player Scripted.BusRow) where
  driver := { settleNs := 10 }
  device := { rows := #[⟨6, 0, 0⟩, ⟨0, 0, 0⟩, ⟨7, 0, 122⟩], haltAt := none, enable := true }
  bus := ⟨.empty, .zero, .ofInput #[65] .fail, {}⟩

/-- A device that writes a byte and reads one in the same cycle, twice. -/
def writesAndReads : SeparatePin.Rig (Scripted.Player SeparatePin.Sample) where
  driver := { settleNs := 10 }
  device :=
    { rows := #[⟨true, 120, true⟩, ⟨true, 121, true⟩], haltAt := none, enable := true }
  channel := .ofInput #[65] (.returnByte 0)

/-- Between half cycles and whole ones, the read is answered once and the write is left pending. The
second read of the other device is behind the end of the input. -/
theorem commits_samples_scripted :
    (∃ history notes last,
        Reaches (Addressed.Drive.act Scripted.addressed.recorded) readThenWrite.recording history
          notes last
        ∧ history.length = 4 ∧ last.driver = ⟨.high ⟨.writeIo, 0, 122⟩, 10, 2⟩
        ∧ last.device.calls
          = #[.clock true, .hold 10, .clock false, .valIn 65, .hold 10, .clock true, .hold 10,
            .clock false, .hold 10, .clock true, .hold 10]
        ∧ ∃ turns, Addressed.Sampled Scripted.addressed readThenWrite turns (entries notes) last)
      ∧ ∃ history notes last,
        Reaches (fun _ : Unit => SeparatePin.Rig.cycle Scripted.separatePin.recorded)
          writesAndReads.recording history notes last
        ∧ last.channel.output = #[120, 121]
        ∧ last.device.calls
          = #[.clock true, .hold 10, .clock false, .inVal 65, .hold 10, .clock true, .hold 10,
            .clock false, .inVal 0, .hold 10]
        ∧ ∃ turns, turns.length = history.length
          ∧ SeparatePin.Sampled Scripted.separatePin writesAndReads turns (entries notes) last := by
  obtain ⟨hbused, hseparate⟩ := commits_samples Scripted.addressed Scripted.separatePin
  have hfirst := reaches_of_attempt
    (show attempt (Addressed.Drive.act Scripted.addressed.recorded)
      [.advance, .cycle, .cycle, .advance] readThenWrite.recording = some _ from rfl)
  have hsecond := reaches_of_attempt
    (show attempt (fun _ : Unit => SeparatePin.Rig.cycle Scripted.separatePin.recorded)
      [(), ()] writesAndReads.recording = some _ from rfl)
  exact ⟨⟨_, _, _, hfirst, rfl, rfl, rfl, hbused _ _ _ _ rfl hfirst⟩,
    ⟨_, _, _, hsecond, rfl, rfl, hseparate _ _ _ _ hsecond⟩⟩

end TapeBench
