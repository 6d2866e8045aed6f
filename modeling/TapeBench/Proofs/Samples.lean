import TapeBench.Recorded

/-!
# `TapeBench.Proofs.Samples`: calls that are replayed

The calls that drove the pins of a device can be replayed on the device. Nothing else changes it, so
a replay shows what its pins were at every point, and above all what they were behind each rising
edge, before the device had time to settle.

* `ClockedDevice.driven`: a call to the pins that every clocked device has.
* `replay`, `Recorded.driveAll`: a device behind some calls, and with these calls taken down.
* `samples`: the pins behind each rising edge.
* `risingCalls`, `fallingCalls`: the calls of the two halves of a cycle.
-/

set_option autoImplicit false

namespace TapeBench

variable {σ κ α : Type}

/-- A call to the control pins. They leave the other calls to the other pins. -/
def ClockedDevice.driven (pins : ClockedDevice σ) : PinCall → σ → σ
  | .clock high => pins.setClock high
  | .reset high => pins.setReset high
  | .enable high => pins.setEnable high
  | .hold ns => pins.hold ns
  | .valIn _ | .inVal _ | .instrAddr _ | .instrIn _ | .instrWrite _ => id

/-- A device behind some calls. -/
def replay (driven : κ → σ → σ) (calls : List κ) (device : σ) : σ :=
  calls.foldl (fun device call => driven call device) device

/-- Makes some calls and takes them down. -/
def Recorded.driveAll (driven : κ → σ → σ) (calls : List κ) (recorded : Recorded κ σ) :
    Recorded κ σ :=
  calls.foldl (fun recorded call => recorded.drive call (driven call)) recorded

/-- Calls may be replayed in parts. -/
theorem replay_append (driven : κ → σ → σ) (calls more : List κ) (device : σ) :
    replay driven (calls ++ more) device = replay driven more (replay driven calls device) :=
  List.foldl_append

namespace Recorded

/-- Calls may be made in parts. -/
theorem driveAll_append (driven : κ → σ → σ) (calls more : List κ) (recorded : Recorded κ σ) :
    recorded.driveAll driven (calls ++ more)
      = (recorded.driveAll driven calls).driveAll driven more :=
  List.foldl_append

/-- Taking calls down makes no difference to the device. -/
theorem driveAll_device (driven : κ → σ → σ) (calls : List κ) (recorded : Recorded κ σ) :
    (recorded.driveAll driven calls).device = replay driven calls recorded.device := by
  induction calls generalizing recorded with
  | nil => rfl
  | cons call rest ih => exact ih (recorded.drive call (driven call))

/-- All calls are taken down, in order, behind those that were taken down before. -/
theorem driveAll_calls (driven : κ → σ → σ) (calls : List κ) (recorded : Recorded κ σ) :
    (recorded.driveAll driven calls).calls.toList = recorded.calls.toList ++ calls := by
  induction calls generalizing recorded with
  | nil => exact (List.append_nil _).symm
  | cons call rest ih =>
      show ((recorded.drive call (driven call)).driveAll driven rest).calls.toList = _
      rw [ih]
      show (recorded.calls.push call).toList ++ rest = _
      rw [Array.toList_push, List.append_assoc]
      rfl

/-- What can be replayed up to some calls can be replayed behind them. -/
theorem replay_driveAll {driven : κ → σ → σ} {recorded : Recorded κ σ} {device : σ}
    (h : recorded.device = replay driven recorded.calls.toList device) (calls : List κ) :
    (recorded.driveAll driven calls).device
      = replay driven (recorded.driveAll driven calls).calls.toList device := by
  rw [driveAll_device, driveAll_calls, replay_append, ← h]

end Recorded

/-- What the pins of a device show behind each rising edge, while some calls are made. -/
def samples (driven : PinCall → σ → σ) (sample : σ → α) : List PinCall → σ → List α
  | [], _ => []
  | call :: rest, device =>
    (if call = .clock true then [sample (driven call device)] else [])
      ++ samples driven sample rest (driven call device)

/-- Samples may be taken in parts, and the later ones are taken of the device that the earlier calls
have left. -/
theorem samples_append (driven : PinCall → σ → σ) (sample : σ → α) (calls more : List PinCall)
    (device : σ) :
    samples driven sample (calls ++ more) device
      = samples driven sample calls device
        ++ samples driven sample more (replay driven calls device) := by
  induction calls generalizing device with
  | nil => rfl
  | cons call rest ih =>
      rw [List.cons_append, samples, ih, ← List.append_assoc]
      rfl

/-- Without a rising edge there is no sample. -/
theorem samples_eq_nil (driven : PinCall → σ → σ) (sample : σ → α) {calls : List PinCall}
    (h : .clock true ∉ calls) (device : σ) : samples driven sample calls device = [] := by
  induction calls generalizing device with
  | nil => rfl
  | cons call rest ih =>
      rw [List.mem_cons, not_or] at h
      rw [samples, if_neg (Ne.symm h.1), ih h.2]
      rfl

/-- The samples go on with those of the calls that are made. -/
theorem samples_driveAll {driven : PinCall → σ → σ} (sample : σ → α)
    {recorded : Recorded PinCall σ} {device : σ}
    (h : recorded.device = replay driven recorded.calls.toList device) (calls : List PinCall) :
    samples driven sample (recorded.driveAll driven calls).calls.toList device
      = samples driven sample recorded.calls.toList device
        ++ samples driven sample calls recorded.device := by
  rw [Recorded.driveAll_calls, samples_append, ← h]

/-- The calls of the rising half of a cycle. -/
def risingCalls (ns : UInt32) : List PinCall :=
  [.clock true, .hold ns]

/-- The calls of the falling half of a cycle, which drives the pins of `served`. -/
def fallingCalls (ns : UInt32) (served : List PinCall) : List PinCall :=
  [.clock false] ++ served ++ [.hold ns]

end TapeBench
