import TapeBench.Proofs.Addressed.Sampling
import TapeBench.Proofs.SeparatePin.Sampling
import TapeBench.Proofs.Serial.Refusal
import TapeBench.Scripted.Device

/-!
# `TapeBench.Proofs.Aborted`: a cycle that faults leaves no half transaction

A cycle can only fault where a read finds the input empty. By then the clock has been driven low,
and on separate pins the byte of the same cycle has been collected. What was begun is kept: the
request stays pending on the addressed bus, and the byte stays in the output. What was not served
leaves no mark: no value is driven, no cycle and no read is counted, and no entry is in the trace.

* `Addressed.Aborted`, `SeparatePin.Aborted`: the fault of a cycle, and what the cycle leaves.
* `Addressed.Drive.repeated`: what a driver does that is asked again and again.
* `faults_abort`: both drivers, with every device and from every state.
-/

set_option autoImplicit false

namespace TapeBench

open Bus (Op Request)

/-- Of two actions, the first gives a value and the second goes on with it. -/
theorem Step.andThen_of_ok {S α β : Type} {first : Step S α} {next : α → S → Step S β} {value : α}
    (h : first.result = .ok value) :
    first.andThen next
      = ⟨(next value first.state).result, (next value first.state).state,
          first.notes ++ (next value first.state).notes⟩ := by
  obtain ⟨result, state, notes⟩ := first
  cases h
  rfl

/-! ### The addressed bus -/

namespace Addressed

variable {σ : Type}

/-- What a driver does that is asked again and again, whether it faults or not. -/
def Drive.repeated (pins : Device σ) : List Drive → Rig σ → List (Step (Rig σ) Unit)
  | [], _ => []
  | drive :: rest, rig => drive.act pins rig :: repeated pins rest (drive.act pins rig).state

/-- The request that the next falling edge will serve: the one that is pending, or the one that the
pins will show when the clock has been raised. -/
def Rig.upcoming (pins : Device σ) (rig : Rig σ) : Request :=
  match rig.driver.phase with
  | .low => pins.request (pins.setClock true rig.device)
  | .high request => request

/-- The calls up to the next falling edge. -/
def Rig.callsToFall (rig : Rig σ) : List PinCall :=
  match rig.driver.phase with
  | .low => risingCalls rig.driver.settleNs ++ [.clock false]
  | .high _ => [.clock false]

/-- A driver has faulted:

- `fault`: the input is exhausted, and the fault tells how much of it was read;
- `bus`: no store, no stream and no count has changed;
- `silent`: there is no entry in the trace;
- `driver`: the request is still pending, and the cycle does not count;
- `device`: the clock is low, and no value was driven;
- `repeated`: whatever the driver is asked to do next gives the same fault. It drives the clock low
  once more, and changes nothing else. -/
structure Aborted (pins : Device σ) (rig : Rig σ) (fault : Fault)
    (stuck : Rig (Recorded PinCall σ)) (notes : List Note) : Prop where
  fault : fault = .inputExhausted rig.bus.channel.consumed
  bus : stuck.bus = rig.bus
  silent : entries notes = []
  driver : stuck.driver = { rig.driver with phase := .high (rig.upcoming pins) }
  device : stuck.device = rig.recording.device.driveAll pins.driven rig.callsToFall
  repeated : ∀ drives, Drive.repeated pins.recorded drives stuck
    = (List.range drives.length).map fun n => ⟨.error (.inputExhausted rig.bus.channel.consumed),
        ⟨stuck.driver,
          stuck.device.driveAll pins.driven (List.replicate (n + 1) (.clock false)), stuck.bus⟩, []⟩

variable {pins : Device σ} {request : Request} {fault : Fault} {rig stuck : Rig σ}
  {notes : List Note}

/-- A request that cannot be served ends the falling half behind the edge, and stays pending. -/
theorem fall_starved (h : (rig.bus.resolve request).result = .error fault) :
    rig.fall pins request
      = ⟨.error fault, ⟨{ rig.driver with phase := .high request },
          pins.setClock false rig.device, rig.bus⟩, []⟩ := by
  obtain ⟨⟨phase, settleNs, cycles⟩, device, bus⟩ := rig
  have hasks : request.op ≠ .noOp := by
    intro hnone
    simp [Peripheral.resolve, hnone] at h
    cases h
  simp only [Rig.fall, commit, if_neg hasks, Peripheral.resolve_of_error h]

/-- The falling half faults with a request that cannot be served, and with no other. The fault is
the one of the stores, as the driver adds none of its own. -/
theorem starved_of_fall (h : (rig.fall pins request).result = .error fault) :
    (rig.bus.resolve request).result = .error fault := by
  obtain ⟨⟨phase, settleNs, cycles⟩, device, bus⟩ := rig
  by_cases hnone : request.op = .noOp
  · simp only [Rig.fall, commit, hnone, if_true, Step.done] at h
    cases h
  · obtain ⟨result, next, lines, hresolve⟩ : ∃ result next lines,
        bus.resolve request = ⟨result, next, lines⟩ := ⟨_, _, _, rfl⟩
    simp only [Rig.fall, commit, hnone, if_false, hresolve] at h
    cases result with
    | error failed =>
        cases h
        rw [hresolve]
    | ok value => cases h

/-- With a request pending that cannot be served, every action faults. All that it does is to lower
the clock of the device, which a second action then does once more. -/
theorem act_starved (pins : Device σ) (drive : Drive) (hpending : rig.driver.phase = .high request)
    (h : (rig.bus.resolve request).result = .error fault) :
    drive.act pins rig
      = ⟨.error fault, ⟨rig.driver, pins.setClock false rig.device, rig.bus⟩, []⟩ := by
  have hadvance : rig.advance pins
      = ⟨.error fault, ⟨rig.driver, pins.setClock false rig.device, rig.bus⟩, []⟩ := by
    simp only [Rig.advance, hpending]
    rw [fall_starved h, ← hpending]
  cases drive with
  | advance => rw [Drive.act, hadvance]; rfl
  | cycle => rw [Drive.act, Rig.cycle, hadvance]; rfl

/-- With a request pending, an action that faults could not serve it. Half a cycle and the rest of a
cycle are the same falling edge here. -/
theorem starved_of_act {drive : Drive} (hpending : rig.driver.phase = .high request)
    (h : (drive.act pins rig).result = .error fault) :
    (rig.bus.resolve request).result = .error fault := by
  have hadvance : rig.advance pins = rig.fall pins request := by
    simp only [Rig.advance, hpending]
  -- Either action begins with the falling half, and what may follow it cannot fault.
  cases drive with
  | advance =>
      rw [Drive.act, hadvance] at h
      rcases Step.of_andThen_error h with ⟨hfall, -⟩ | ⟨reached, -, hdone⟩
      · exact starved_of_fall hfall
      · cases hdone
  | cycle =>
      rw [Drive.act, Rig.cycle, hadvance] at h
      rcases Step.of_andThen_error h with ⟨hfall, -⟩ | ⟨reached, hreached, hdone⟩
      · exact starved_of_fall hfall
      · obtain rfl := low_of_fall hreached
        cases hdone

/-- From a low clock only a whole cycle can fault, behind its rising half. The request that it
cannot serve is the one that the device shows when its clock line has been raised, and the rig it
leaves is that of the rising half with the clock of the device lowered. -/
theorem act_low_of_error (hlow : rig.driver.phase = .low) {drive : Drive}
    (h : (drive.act pins rig).result = .error fault) :
    (rig.bus.resolve (rig.upcoming pins)).result = .error fault
      ∧ drive.act pins rig
        = ⟨.error fault, ⟨(rig.rise pins).state.driver,
            pins.setClock false (rig.rise pins).state.device, rig.bus⟩,
            (rig.rise pins).notes⟩ := by
  obtain ⟨⟨phase, settleNs, cycles⟩, device, bus⟩ := rig
  obtain rfl : phase = .low := hlow
  cases drive with
  | advance => cases h
  | cycle =>
      -- Behind the rising half, a cycle goes on like half a cycle.
      let risen := Rig.rise pins ⟨⟨.low, settleNs, cycles⟩, device, bus⟩
      have hrest : (Drive.act pins .advance risen.state).result = .error fault := h
      have hstarved : (bus.resolve (pins.request (pins.setClock true device))).result
          = .error fault := starved_of_act rfl hrest
      have hstuck : Drive.act pins .advance risen.state
          = ⟨.error fault, ⟨risen.state.driver, pins.setClock false risen.state.device, bus⟩, []⟩ :=
        act_starved pins .advance rfl hstarved
      refine ⟨hstarved, ?_⟩
      show (⟨(Drive.act pins .advance risen.state).result,
        (Drive.act pins .advance risen.state).state,
        risen.notes ++ (Drive.act pins .advance risen.state).notes⟩ : Step (Rig σ) Unit) = _
      rw [hstuck, List.append_nil]

section Recorded

variable {fault : Fault} {rig : Rig σ} {drive : Drive} {stuck : Rig (Recorded PinCall σ)}
  {notes : List Note}

/-- An action that faults leaves its request pending, the clock low and the stores alone. The driver
still calls the clock high, as it has not come to the end of the falling half. So the same request
is tried again by the next one. -/
theorem stuck_of_act
    (h : drive.act pins.recorded rig.recording = ⟨.error fault, stuck, notes⟩) :
    (rig.bus.resolve (rig.upcoming pins)).result = .error fault
      ∧ stuck = ⟨{ rig.driver with phase := .high (rig.upcoming pins) },
        rig.recording.device.driveAll pins.driven rig.callsToFall, rig.bus⟩
      ∧ entries notes = [] := by
  obtain ⟨⟨phase, settleNs, cycles⟩, device, bus⟩ := rig
  have hresult := congrArg Step.result h
  -- A low clock has its request still to sample, and a high one has it pending.
  cases phase with
  | low =>
      obtain ⟨hstarved, hact⟩ := act_low_of_error rfl hresult
      rw [hact] at h
      cases h
      exact ⟨hstarved, rfl, entries_messages _⟩
  | high request =>
      have hstarved := starved_of_act rfl hresult
      have hact := act_starved pins.recorded drive rfl hstarved
      rw [hact] at h
      cases h
      exact ⟨hstarved, rfl, rfl⟩

/-- With a request pending that cannot be served, a driver that is asked again and again faults each
time, and drives the clock low once more. -/
theorem repeated_starved {request : Request} (hpending : stuck.driver.phase = .high request)
    (h : (stuck.bus.resolve request).result = .error fault) (drives : List Drive) :
    Drive.repeated pins.recorded drives stuck
      = (List.range drives.length).map fun n => ⟨.error fault,
          ⟨stuck.driver,
            stuck.device.driveAll pins.driven (List.replicate (n + 1) (.clock false)),
            stuck.bus⟩, []⟩ := by
  induction drives generalizing stuck with
  | nil => rfl
  | cons drive rest ih =>
      -- The fault leaves the driver as it was, with the same request pending.
      have hact := act_starved pins.recorded drive hpending h
      have hlater := @ih ⟨stuck.driver, stuck.device.driveAll pins.driven [.clock false], stuck.bus⟩
        hpending h
      rw [Drive.repeated, hact]
      refine (congrArg (List.cons _) hlater).trans ?_
      rw [List.length_cons, List.range_succ_eq_map, List.map_cons, List.map_map]
      rfl

/-- An action that faults is an aborted one, from a low clock and from a high one. A low clock has
first come to where a high clock begins, with the request that was sampled on the way. -/
theorem aborted_of_act
    (h : drive.act pins.recorded rig.recording = ⟨.error fault, stuck, notes⟩) :
    Aborted pins rig fault stuck notes := by
  obtain ⟨hstarved, rfl, hsilent⟩ := stuck_of_act h
  have hfault : fault = .inputExhausted rig.bus.channel.consumed :=
    Peripheral.exhausted_of_resolve (Peripheral.resolve_of_error hstarved)
  subst hfault
  exact
    { fault := rfl
      bus := rfl
      silent := hsilent
      driver := rfl
      device := rfl
      repeated := repeated_starved rfl hstarved }

end Recorded

end Addressed

/-! ### Separate pins -/

namespace SeparatePin

variable {σ : Type}

/-- The pins that the next cycle will sample. -/
def Rig.upcoming (pins : Device σ) (rig : Rig σ) : Sample :=
  pins.sample (pins.setClock true rig.device)

/-- A cycle has faulted:

- `reading`: its sample asked for a byte;
- `fault`: the input is exhausted, and the fault tells how much of it was read;
- `channel`: the byte that the sample emits is in the output, and the input has not changed;
- `driver`: this byte is counted, and neither a read nor the cycle is;
- `traced`: this byte is in the trace once, and nothing else is;
- `device`: the clock is low, and no byte was fed. -/
structure Aborted (pins : Device σ) (rig : Rig σ) (fault : Fault)
    (stuck : Rig (Recorded PinCall σ)) (notes : List Note) : Prop where
  reading : (rig.upcoming pins).inReading = true
  fault : fault = .inputExhausted rig.channel.consumed
  channel : stuck.channel
    = { rig.channel with
        output :=
          if (rig.upcoming pins).outEnable then
            rig.channel.output.push (rig.upcoming pins).outVal
          else rig.channel.output }
  driver : stuck.driver
    = { rig.driver with
        tally :=
          if (rig.upcoming pins).outEnable then rig.driver.tally.record .writeIo
          else rig.driver.tally }
  traced : entries notes
    = if (rig.upcoming pins).outEnable then
        [.transaction rig.driver.cycles .writeIo 0 (rig.upcoming pins).outVal 0]
      else []
  device : stuck.device
    = rig.recording.device.driveAll pins.driven
      (risingCalls rig.driver.settleNs ++ [.clock false])

variable {pins : Device σ} {sampled : Sample} {fault : Fault} {notes : List Note}

/-- Feeding a byte faults at the end of the input, and has done nothing then: the pins are as they
were, and nothing is counted or noted. -/
theorem feed_of_error {rig : Rig σ} (h : (rig.feed pins sampled).result = .error fault) :
    sampled.inReading = true ∧ fault = .inputExhausted rig.channel.consumed
      ∧ rig.feed pins sampled = ⟨.error fault, rig, []⟩ := by
  obtain ⟨⟨settleNs, cycles, tally⟩, device, channel⟩ := rig
  simp only [Rig.feed] at h ⊢
  cases hreads : sampled.inReading with
  | false =>
      simp only [hreads, Bool.false_eq_true, if_false] at h
      cases h
  | true =>
      simp only [hreads, if_true] at h ⊢
      -- Only a read that finds nothing fails, and then there is no fallback to announce either.
      rcases channel.read_cases with ⟨byte, next, lines, hread⟩ | ⟨hfalls, hread⟩
      · simp only [hread] at h
        cases h
      · simp only [hread, hfalls] at h ⊢
        cases h
        exact ⟨trivial, rfl, rfl⟩

/-- A cycle faults where its byte is fed, behind the edges and the byte that was collected. Nothing
before that can fail, and what comes behind it is not begun. -/
theorem cycle_of_error {rig : Rig σ} (h : (rig.cycle pins).result = .error fault) :
    let lowered := (rig.rise pins).state.lower pins
    let collected := (lowered.collect (rig.upcoming pins)).state
    (rig.upcoming pins).inReading = true ∧ fault = .inputExhausted collected.channel.consumed
      ∧ rig.cycle pins
        = ⟨.error fault, collected,
            (rig.rise pins).notes ++ ((lowered.collect (rig.upcoming pins)).notes ++ [])⟩ := by
  intro lowered collected
  have hcollect : (lowered.collect (rig.upcoming pins)).result = .ok () := by rw [collect_eq]
  -- Only the third part of the cycle can fault.
  have hfeed : (collected.feed pins (rig.upcoming pins)).result = .error fault := by
    rcases Step.of_andThen_error h with ⟨hrise, -⟩ | ⟨sampled, hrise, hserve⟩
    · cases hrise
    cases hrise
    rcases Step.of_andThen_error hserve with ⟨hfailed, -⟩ | ⟨_, -, hread⟩
    · cases hcollect.symm.trans hfailed
    rcases Step.of_andThen_error hread with ⟨hfailed, -⟩ | ⟨_, -, hfinish⟩
    · exact hfailed
    · cases hfinish
  obtain ⟨hreading, hfault, hfed⟩ := feed_of_error hfeed
  refine ⟨hreading, hfault, ?_⟩
  have hread : ((collected.feed pins (rig.upcoming pins)).andThen fun _ rig => rig.finish pins)
      = ⟨.error fault, collected, []⟩ := by
    rw [hfed]
    rfl
  have hrise : (rig.rise pins).result = .ok (rig.upcoming pins) := rfl
  rw [Rig.cycle, Step.andThen_of_ok hrise, Step.andThen_of_ok hcollect, hread]

/-- A cycle that faults is an aborted one. What it leaves is the rig behind its rising edge, with
the clock lowered and the byte collected that the device had to write, if there was one. -/
theorem aborted_of_cycle {rig : Rig σ} {stuck : Rig (Recorded PinCall σ)}
    (h : rig.recording.cycle pins.recorded = ⟨.error fault, stuck, notes⟩) :
    Aborted pins rig fault stuck notes := by
  obtain ⟨hreading, hfault, hcycle⟩ := cycle_of_error (congrArg Step.result h)
  rw [hcycle, collect_eq] at h
  rw [collect_eq] at hfault
  cases h
  exact
    { reading := hreading
      fault := hfault
      channel := rfl
      driver := rfl
      traced := by
        show entries (List.map Note.message _
          ++ ((if (rig.upcoming pins).outEnable then
              [.event (.transaction rig.driver.cycles .writeIo 0 (rig.upcoming pins).outVal 0)]
            else []) ++ [])) = _
        rw [entries_append, entries_messages, List.append_nil, List.nil_append]
        -- The trace of the cycle is the write that was collected, if there was one.
        cases (rig.upcoming pins).outEnable <;> rfl
      device := rfl }

end SeparatePin

/-! ### Both drivers -/

/-- A cycle that faults leaves no half transaction, with every device, from every state of the
driver and in front of every store. Over the addressed bus the request stays pending and nothing has
been served. Over separate pins a byte that the device wrote in the same cycle has been collected,
since that comes before the read that faults. -/
theorem faults_abort {σ τ : Type} (bused : Addressed.Device σ) (separate : SeparatePin.Device τ) :
    (∀ (drive : Addressed.Drive) rig fault stuck notes,
        drive.act bused.recorded rig.recording = ⟨.error fault, stuck, notes⟩ →
          Addressed.Aborted bused rig fault stuck notes)
      ∧ ∀ (rig : SeparatePin.Rig τ) fault stuck notes,
        rig.recording.cycle separate.recorded = ⟨.error fault, stuck, notes⟩ →
          SeparatePin.Aborted separate rig fault stuck notes :=
  ⟨fun _ _ _ _ _ h => Addressed.aborted_of_act h, fun _ _ _ _ h => SeparatePin.aborted_of_cycle h⟩

/-- A device that reads a byte from an input that has none left, in front of a driver that has taken
two cycles and read one byte. -/
def starvingRead : Addressed.Rig (Scripted.Player Scripted.BusRow) where
  driver := { settleNs := 10, cycles := 2 }
  device := { rows := #[⟨6, 0, 0⟩], haltAt := none, enable := true }
  bus := ⟨.empty, .zero, { consumed := 1 }, { readIo := 1 }⟩

/-- A device that writes a byte in the cycle of a read that cannot be served. -/
def starvingWrite : SeparatePin.Rig (Scripted.Player SeparatePin.Sample) where
  driver := { settleNs := 10, cycles := 2 }
  device := { rows := #[⟨true, 120, true⟩], haltAt := none, enable := true }
  channel := { consumed := 1 }

/-- The read is left pending, and the byte of the other device is collected once. -/
theorem faults_abort_starving :
    (∃ stuck notes,
        Addressed.Drive.act Scripted.addressed.recorded .cycle starvingRead.recording
          = ⟨.error (.inputExhausted 1), stuck, notes⟩
        ∧ stuck.driver = ⟨.high ⟨.readIo, 0, 0⟩, 10, 2⟩
        ∧ stuck.device.calls = #[.clock true, .hold 10, .clock false]
        ∧ Addressed.Aborted Scripted.addressed starvingRead (.inputExhausted 1) stuck notes)
      ∧ ∃ stuck notes,
        starvingWrite.recording.cycle Scripted.separatePin.recorded
          = ⟨.error (.inputExhausted 1), stuck, notes⟩
        ∧ stuck.channel = { consumed := 1, output := #[120] }
        ∧ entries notes = [.transaction 2 .writeIo 0 120 0]
        ∧ SeparatePin.Aborted Scripted.separatePin starvingWrite (.inputExhausted 1) stuck
          notes := by
  obtain ⟨hbused, hseparate⟩ := faults_abort Scripted.addressed Scripted.separatePin
  exact ⟨⟨_, _, rfl, rfl, rfl, hbused .cycle _ _ _ _ rfl⟩,
    ⟨_, _, rfl, rfl, rfl, hseparate _ _ _ _ rfl⟩⟩

end TapeBench
