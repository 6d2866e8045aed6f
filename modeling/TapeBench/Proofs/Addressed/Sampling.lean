import TapeBench.Proofs.Reaches
import TapeBench.Proofs.Samples
import TapeBench.Proofs.Trace

/-!
# `TapeBench.Proofs.Addressed.Sampling`: every request that is sampled is served

On the addressed bus the request is sampled at the rising edge and served at the falling one. In
between is a call to the driver that has returned, and it may be followed by half a cycle or by a
whole one. Whichever it is, the request that is pending is served next.

* `Drive`: what a driver may be asked to do.
* `Turn`: a request that was sampled, with the value that was served for it.
* `Sampled`: the calls, the trace and the stores behind some turns.
* `exists_sampled`: every sequence of actions that succeed is made of turns.
-/

set_option autoImplicit false

namespace TapeBench.Addressed

open Bus (Op Request)

variable {σ : Type}

/-- A call to the pins of a device on the addressed bus. -/
def Device.driven (pins : Device σ) : PinCall → σ → σ
  | .valIn value => pins.setValIn value
  | call => pins.toClockedDevice.driven call

/-- What a driver may be asked to do:

- `advance`: one half of a cycle;
- `cycle`: the rest of a cycle, up to a low clock. -/
inductive Drive where
  | advance
  | cycle
  deriving DecidableEq

/-- A driver does as it is asked. -/
def Drive.act (pins : Device σ) (drive : Drive) (rig : Rig σ) : Step (Rig σ) Unit :=
  match drive with
  | .advance => (rig.advance pins).andThen fun _ rig => .done () rig []
  | .cycle => rig.cycle pins

/-- A request that was sampled, with the value that was served for it. -/
structure Turn where
  request : Request
  value : UInt8

/-- The call that hands over the value of a read. -/
def Turn.served (turn : Turn) : List PinCall :=
  if turn.request.op.isRead then [.valIn turn.value] else []

/-- The calls of a turn. -/
def Turn.calls (ns : UInt32) (turn : Turn) : List PinCall :=
  risingCalls ns ++ fallingCalls ns turn.served

/-- The falling half of a turn lowers the clock once, and does not raise it. -/
theorem Turn.edges_falling (turn : Turn) (ns : UInt32) :
    .clock true ∉ fallingCalls ns turn.served
      ∧ (fallingCalls ns turn.served).count (.clock false) = 1 := by
  rw [Turn.served]
  split <;> simp [fallingCalls]

/-- There are as many falling edges as turns. -/
theorem count_calls (turns : List Turn) (ns : UInt32) :
    (turns.flatMap (Turn.calls ns)).count (.clock false) = turns.length := by
  induction turns with
  | nil => rfl
  | cons turn rest ih =>
      rw [List.flatMap_cons, List.count_append, ih, Turn.calls, List.count_append,
        (turn.edges_falling ns).2, List.length_cons]
      exact Nat.add_comm 1 _

/-- The transfers of a turn. A request for nothing is not served. -/
def Turn.transfers (turn : Turn) (time : Nat) : List Transfer :=
  if turn.request.op = .noOp then [] else [⟨time, turn.request, turn.value⟩]

/-- The request that is waiting to be served. -/
def ClockPhase.pending : ClockPhase → List Request
  | .low => []
  | .high sampled => [sampled]

/-- The rig, with nothing taken down yet. -/
def Rig.recording (rig : Rig σ) : Rig (Recorded PinCall σ) :=
  ⟨rig.driver, ⟨rig.device, #[]⟩, rig.bus⟩

/-- What a driver has done that began with a low clock and has taken some turns since:

- `settle`: it holds the device as long as ever;
- `calls`: each turn has raised the clock, held the device, lowered the clock, handed over the value
  of a read and held the device again, and a sample that is pending has done the first half of it;
- `device`: nothing else was done to the device;
- `sampled`: the turns are what was sampled, in order, but for the sample that is pending;
- `cycles`: each falling edge is counted;
- `served`: the request of each turn was served in its cycle, unless it was for nothing;
- `account`: the stores were asked for these and gave the values, and nothing else. -/
structure Sampled (pins : Device σ) (start : Rig σ) (turns : List Turn) (trace : List TraceEvent)
    (last : Rig (Recorded PinCall σ)) : Prop where
  settle : last.driver.settleNs = start.driver.settleNs
  calls : last.device.calls.toList
    = turns.flatMap (Turn.calls start.driver.settleNs)
      ++ last.driver.phase.pending.flatMap fun _ => risingCalls start.driver.settleNs
  device : last.device.device = replay pins.driven last.device.calls.toList start.device
  sampled : samples pins.driven pins.request last.device.calls.toList start.device
    = turns.map Turn.request ++ last.driver.phase.pending
  cycles : last.driver.cycles
    = start.driver.cycles + last.device.calls.toList.count (.clock false)
  served : transfers trace
    = (turns.zipIdx start.driver.cycles).flatMap fun (turn, time) => turn.transfers time
  account : Account Transfer.Before start.driver.cycles last.driver.cycles start.bus trace last.bus

section Half

variable {pins : Device σ} {request : Request} {reached : ClockPhase} {notes : List Note}
  {rig last : Rig (Recorded PinCall σ)}

/-- The rising half of a cycle samples the pins behind the edge, and serves nothing. -/
theorem rise_of_ok (h : rig.rise pins.recorded = ⟨.ok reached, last, notes⟩) :
    last.driver = ⟨.high (pins.request (pins.setClock true rig.device.device)),
        rig.driver.settleNs, rig.driver.cycles⟩
      ∧ last.device = rig.device.driveAll pins.driven (risingCalls rig.driver.settleNs)
      ∧ last.bus = rig.bus ∧ entries notes = [] := by
  obtain ⟨⟨phase, settleNs, cycles⟩, ⟨device, calls⟩, bus⟩ := rig
  cases h
  exact ⟨rfl, rfl, rfl, entries_messages _⟩

/-- The falling half of a cycle serves the sample: the value is handed over if the sample was a
read, the cycle is counted, and the trace has the transfer if there was one. The value of any other
request is not shown to the device. -/
theorem fall_of_ok (h : rig.fall pins.recorded request = ⟨.ok reached, last, notes⟩) :
    ∃ value, last.driver = ⟨.low, rig.driver.settleNs, rig.driver.cycles + 1⟩
      ∧ last.device
        = rig.device.driveAll pins.driven
          (fallingCalls rig.driver.settleNs (Turn.served ⟨request, value⟩))
      ∧ transfers (entries notes) = Turn.transfers ⟨request, value⟩ rig.driver.cycles := by
  obtain ⟨⟨phase, settleNs, cycles⟩, ⟨device, calls⟩, bus⟩ := rig
  -- An idle request drives nothing back. The bus answers any other, or the fall fails.
  by_cases hnone : request.op = .noOp
  · simp only [Rig.fall, commit, hnone, if_true, Step.done] at h
    cases h
    refine ⟨0, rfl, ?_, ?_⟩
    · simp [Turn.served, hnone, Op.isRead]
      rfl
    · simp [Turn.transfers, hnone]
  · obtain ⟨result, next, lines, hresolve⟩ : ∃ result next lines,
        bus.resolve request = ⟨result, next, lines⟩ := ⟨_, _, _, rfl⟩
    simp only [Rig.fall, commit, hnone, if_false, hresolve] at h
    cases result with
    | error fault => cases h
    | ok value =>
        cases h
        refine ⟨value, rfl, ?_, ?_⟩
        · cases hread : request.op.isRead <;> simp [Turn.served, hread] <;> rfl
        · obtain ⟨messages, rfl⟩ := Peripheral.exists_lines_of_resolve hresolve
          -- Of all the notes of a commit only the event of the transaction is a transfer.
          show transfers (entries (messages.map Note.message
            ++ servedEvents cycles request value _ ++ _)) = _
          rw [entries_append, entries_append, entries_messages, Serial.entries_servedEvents,
            ClockedDevice.entries_settle, List.nil_append, List.append_nil,
            transfers_transferred, Turn.transfers, if_neg hnone]

end Half

/-- A low clock with nothing taken down. A driver in the middle of a cycle would bring a sample with
it that no recorded call has made. -/
theorem sampled_recording (pins : Device σ) {start : Rig σ} (hlow : start.driver.phase = .low) :
    Sampled pins start [] [] start.recording where
  settle := rfl
  calls := by
    show [] = start.driver.phase.pending.flatMap _
    rw [hlow]
    rfl
  device := rfl
  sampled := by
    show [] = [] ++ start.driver.phase.pending
    rw [hlow]
    rfl
  cycles := rfl
  served := rfl
  account := .nil _ _ _ _

namespace Sampled

variable {pins : Device σ} {start : Rig σ} {turns : List Turn} {trace : List TraceEvent}
  {rig last : Rig (Recorded PinCall σ)} {reached : ClockPhase} {notes : List Note}

/-- A rising edge leaves its sample pending. It calls the device and touches neither the stores nor
the trace, so every field but those about the calls and the samples is kept. -/
theorem rise (h : Sampled pins start turns trace rig) (hlow : rig.driver.phase = .low)
    (hrise : rig.rise pins.recorded = ⟨.ok reached, last, notes⟩) :
    Sampled pins start turns (trace ++ entries notes) last := by
  obtain ⟨hdriver, hdevice, hbus, hsilent⟩ := rise_of_ok hrise
  have hcalls := h.calls
  have hsampled := h.sampled
  -- While the clock is low nothing is pending, so the record says the whole of what was driven.
  rw [hlow] at hcalls hsampled
  rw [h.settle] at hdevice
  rw [hsilent, List.append_nil]
  constructor
  case settle => rw [hdriver, h.settle]
  case calls =>
    rw [hdevice, Recorded.driveAll_calls, hcalls, hdriver]
    simp [ClockPhase.pending]
  case device =>
    rw [hdevice]
    exact Recorded.replay_driveAll h.device _
  case sampled =>
    rw [hdevice, samples_driveAll _ h.device, hsampled, hdriver, ClockPhase.pending,
      List.append_nil]
    rfl
  case cycles =>
    rw [hdevice, Recorded.driveAll_calls, List.count_append, hdriver]
    exact h.cycles
  case served => exact h.served
  case account =>
    rw [hbus, hdriver]
    exact h.account

/-- Each turn counts as a cycle. -/
theorem cycles_eq (h : Sampled pins start turns trace rig) :
    rig.driver.cycles = start.driver.cycles + turns.length := by
  rw [h.cycles, h.calls, List.count_append, count_calls]
  cases rig.driver.phase <;> rfl

/-- A falling edge makes a turn of the sample: what was pending is served, the cycle is counted, and
nothing is pending then. -/
theorem fall (h : Sampled pins start turns trace rig) {request : Request}
    (hhigh : rig.driver.phase = .high request)
    (hfall : rig.fall pins.recorded request = ⟨.ok reached, last, notes⟩) :
    ∃ turn, Sampled pins start (turns ++ [turn]) (trace ++ entries notes) last := by
  have haccount := (accounts_fall pins.recorded request rig).account
  rw [hfall] at haccount
  obtain ⟨value, hdriver, hdevice, hserved⟩ := fall_of_ok hfall
  let turn : Turn := ⟨request, value⟩
  -- The falling half samples nothing, so the samples stay those of the turns, the new one included.
  obtain ⟨hnone, hone⟩ := turn.edges_falling start.driver.settleNs
  have hcalls := h.calls
  have hsampled := h.sampled
  rw [hhigh] at hcalls hsampled
  rw [h.settle] at hdevice
  refine ⟨turn, ?_⟩
  constructor
  case settle => rw [hdriver, h.settle]
  case calls =>
    rw [hdevice, Recorded.driveAll_calls, hcalls, hdriver]
    simp [ClockPhase.pending, Turn.calls, turn]
  case device =>
    rw [hdevice]
    exact Recorded.replay_driveAll h.device _
  case sampled =>
    rw [hdevice, samples_driveAll _ h.device, hsampled, samples_eq_nil _ _ hnone, hdriver]
    simp [ClockPhase.pending, turn]
  case cycles =>
    rw [hdevice, Recorded.driveAll_calls, List.count_append, hone, hdriver, h.cycles]
    rfl
  case served =>
    rw [transfers_append, h.served, hserved, h.cycles_eq, List.zipIdx_append, List.flatMap_append]
    simp [turn]
  case account =>
    have hcycles : start.driver.cycles ≤ rig.driver.cycles := by
      rw [h.cycles]
      exact Nat.le_add_right _ _
    rw [hdriver]
    exact h.account.append (fun _ _ htime => htime) hcycles (Nat.le_succ _) haccount

/-- Half a cycle more: a sample, or the turn of the sample that was pending. A rising edge adds no
turn, so `later` is empty or one turn. -/
theorem advance (h : Sampled pins start turns trace rig)
    (hadvance : rig.advance pins.recorded = ⟨.ok reached, last, notes⟩) :
    ∃ later, Sampled pins start (turns ++ later) (trace ++ entries notes) last := by
  rw [Rig.advance] at hadvance
  cases hphase : rig.driver.phase with
  | low =>
      simp only [hphase] at hadvance
      refine ⟨[], ?_⟩
      rw [List.append_nil]
      exact h.rise hphase hadvance
  | high request =>
      simp only [hphase] at hadvance
      obtain ⟨turn, hturn⟩ := h.fall hphase hadvance
      exact ⟨[turn], hturn⟩

/-- Whatever the driver is asked to do is made of half cycles. A whole cycle that finds the clock
high finishes the cycle that was begun, and takes no other one. -/
theorem act (h : Sampled pins start turns trace rig) {drive : Drive} {value : Unit}
    (hact : drive.act pins.recorded rig = ⟨.ok value, last, notes⟩) :
    ∃ later, Sampled pins start (turns ++ later) (trace ++ entries notes) last := by
  cases drive with
  | advance =>
      simp only [Drive.act] at hact
      obtain ⟨reached, middle, front, _, hadvance, hdone, rfl⟩ := Step.of_andThen_ok hact
      cases hdone
      rw [List.append_nil]
      exact h.advance hadvance
  | cycle =>
      simp only [Drive.act, Rig.cycle] at hact
      obtain ⟨reached, middle, front, more, hfirst, hrest, rfl⟩ := Step.of_andThen_ok hact
      obtain ⟨first, hmiddle⟩ := h.advance hfirst
      -- A cycle that was begun before needs only its falling half.
      cases reached with
      | low =>
          cases hrest
          rw [List.append_nil]
          exact ⟨first, hmiddle⟩
      | high request =>
          obtain ⟨_, ended, between, _, hsecond, hdone, rfl⟩ := Step.of_andThen_ok hrest
          cases hdone
          obtain ⟨second, hlast⟩ := hmiddle.advance hsecond
          rw [List.append_assoc, List.append_assoc, ← entries_append] at hlast
          rw [List.append_nil]
          exact ⟨first ++ second, hlast⟩

end Sampled

/-- Every sequence of actions that succeed, from a low clock on, is made of turns. It may end in the
middle of a turn, whose sample is then pending. -/
theorem exists_sampled {pins : Device σ} {start : Rig σ} (hlow : start.driver.phase = .low)
    {history : List (Drive × Unit)} {notes : List Note} {last : Rig (Recorded PinCall σ)}
    (h : Reaches (Drive.act pins.recorded) start.recording history notes last) :
    ∃ turns, Sampled pins start turns (entries notes) last := by
  induction h with
  | refl => exact ⟨[], sampled_recording pins hlow⟩
  | snoc _ hact ih =>
      obtain ⟨turns, hturns⟩ := ih
      obtain ⟨later, hlast⟩ := hturns.act hact
      rw [entries_append]
      exact ⟨turns ++ later, hlast⟩

end TapeBench.Addressed
