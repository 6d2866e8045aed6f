import TapeBench.Proofs.Replay
import TapeBench.Proofs.Serial.Protocol
import TapeBench.Recorded
import TapeBench.Scripted.Link

/-!
# `TapeBench.Proofs.Serial.Refusal`: a poll that is turned away changes nothing

A poll can be turned away at four points: the output register cannot be read, the device has halted,
the word breaks the phase protocol, or the transaction reads past the end of the input. In all four
the poll has read the output register and done nothing else. The last point is the delicate one: it
lies behind the latches and inside the transaction. But an execution latches nothing, and a read
that nothing stands in for leaves the stores and the trace alone.

* `TurnedAway`: the four points.
* `Rig.poll_of_fault`: a fault that does not come from the transport has no effect.
* `Rig.poll_turned_away`: what such a poll leaves behind, and what becomes of the next poll.
-/

set_option autoImplicit false

namespace TapeBench

open Bus (Request)

/-- A request that fails reaches no store, and is not logged. What is left is the fault. -/
theorem Peripheral.resolve_of_error {bus : Peripheral} {request : Request} {fault : Fault}
    (h : (bus.resolve request).result = .error fault) :
    bus.resolve request = ⟨.error fault, bus, []⟩ := by
  obtain ⟨program, data, channel, tally⟩ := bus
  obtain ⟨op, addr, value⟩ := request
  cases op with
  | readIo =>
      rcases channel.read_cases with ⟨byte, after, lines, hread⟩ | ⟨-, hread⟩
      · simp only [resolve, hread, served, Step.done] at h
        cases h
      · simp only [resolve, hread] at h ⊢
        cases h
        rfl
  | noOp | readProgram | readData | writeData | writeIo => cases h

/-- Of two actions, the first fails and the second does not take place, or the second fails. In the
first case the state and the notes are those of the first action. -/
theorem Step.of_andThen_error {S α β : Type} {first : Step S α} {next : α → S → Step S β}
    {fault : Fault} (h : (first.andThen next).result = .error fault) :
    (first.result = .error fault
        ∧ first.andThen next = ⟨.error fault, first.state, first.notes⟩)
      ∨ ∃ value, first.result = .ok value ∧ (next value first.state).result = .error fault := by
  obtain ⟨result, state, notes⟩ := first
  cases result with
  | error failed =>
      cases h
      exact .inl ⟨rfl, rfl⟩
  | ok value => exact .inr ⟨value, rfl, h⟩

namespace Serial

variable {σ : Type}

/-- A fault that does not come from the transport. -/
def Untransported (fault : Fault) : Prop :=
  ∀ error : LinkError, fault ≠ .link error

/-- The link, with `word` in its output register. Reading the register leaves the link as it is. -/
def Link.displaying (link : Link σ) (word : UInt16) : Link σ :=
  { link with getOutputs := fun device => (.ok word, device) }

namespace Rig

variable {link : Link σ} {rig : Rig σ} {phase : Phase} {value : UInt8} {fault : Fault}

/-! ### A fault behind the read -/

/-- A transaction that fails has no effect: no commit is counted, the input register is not touched,
and nothing is noted. -/
theorem execute_of_error (h : (rig.execute value).result = .error fault) :
    rig.execute value = ⟨.error fault, rig, []⟩ := by
  obtain ⟨host, device, bus⟩ := rig
  cases hresult : (bus.resolve (host.request value)).result with
  | ok given =>
      have hserved : bus.resolve (host.request value)
          = ⟨.ok given, (bus.resolve (host.request value)).state,
              (bus.resolve (host.request value)).notes⟩ := by
        rw [← hresult]
      rw [execute_served device hserved] at h
      cases h
  | error failed =>
      have hfailed := Peripheral.resolve_of_error hresult
      -- A fallback would have served the read, so none was announced.
      have hfalls := Peripheral.not_fallsBack_of_error hresult
      simp only [execute, hfailed, hfalls] at h ⊢
      cases h
      simp

/-- Only the execution phase can fail to be served, and then nothing has happened. -/
theorem enter_of_error (h : (rig.enter phase value).result = .error fault) :
    phase = .execute ∧ rig.enter phase value = ⟨.error fault, rig, []⟩ := by
  cases phase with
  | execute => exact ⟨rfl, execute_of_error h⟩
  | idle | opcode | addressHigh | addressLow => cases h

/-- Writing the input register changes the link, and fails in the transport only. -/
theorem sendInputs_eq (link : Link σ) (rig : Rig σ) :
    rig.sendInputs link
      = ⟨(link.setInputs rig.host.inputs.toBits rig.device).1.mapError Fault.link,
          { rig with device := (link.setInputs rig.host.inputs.toBits rig.device).2 }, []⟩ := by
  obtain ⟨host, device, bus⟩ := rig
  simp only [sendInputs]
  obtain ⟨_ | _, after⟩ := link.setInputs host.inputs.toBits device <;> rfl

/-- Pulsing the clock sets the phase and changes the link, and fails in the transport only. The
phase is set in either case. -/
theorem pulse_eq (link : Link σ) (phase : Phase) (rig : Rig σ) :
    ∃ result steps, ∃ lines : List Message, rig.pulse link phase
      = ⟨Except.mapError Fault.link result,
          ⟨{ rig.host with phase, steps }, (link.stepClock rig.device).2, rig.bus⟩,
          lines.map Note.message⟩ := by
  obtain ⟨host, device, bus⟩ := rig
  simp only [pulse]
  obtain ⟨result, after⟩ := link.stepClock device
  cases result with
  | ok _ => exact ⟨.ok (.running phase), host.steps + 1, _, rfl⟩
  | error error => exact ⟨.error error, host.steps, _, rfl⟩

/-- What fails in the transport fails in the transport only. -/
theorem link_of_mapError {α : Type} {result : Except LinkError α}
    (h : result.mapError Fault.link = .error fault) : ¬Untransported fault := by
  cases result with
  | ok _ => cases h
  | error error =>
      cases h
      exact fun hfault => hfault error rfl

/-- Serving an observation fails in the transport, or it fails in the transaction and has no
effect. -/
theorem exchange_of_fault {transition : Transition} (hfault : Untransported fault)
    (h : (rig.exchange link phase transition value).result = .error fault) :
    rig.exchange link phase transition value = ⟨.error fault, rig, []⟩ := by
  obtain ⟨host, device, bus⟩ := rig
  simp only [exchange] at h ⊢
  -- A pulse and a write fail only with an error of the link, against `hfault`. What is left is a
  -- request that the bus refuses, before the host has made any call.
  cases transition with
  | held =>
      obtain ⟨result, steps, lines, hpulse⟩ :=
        pulse_eq link phase ⟨host.latch phase value, device, bus⟩
      rw [hpulse] at h
      exact absurd hfault (link_of_mapError h)
  | entered =>
      rcases Step.of_andThen_error h with ⟨hserve, hall⟩ | ⟨_, -, hpulse⟩
      · rcases Step.of_andThen_error hserve with ⟨henter, hboth⟩ | ⟨_, -, hsend⟩
        · obtain ⟨rfl, hexecute⟩ := enter_of_error henter
          rw [hall, hboth, hexecute]
          rfl
        · rw [sendInputs_eq] at hsend
          exact absurd hfault (link_of_mapError hsend)
      · obtain ⟨result, steps, lines, hpulsed⟩ := pulse_eq link phase _
        rw [hpulsed] at hpulse
        exact absurd hfault (link_of_mapError hpulse)

/-- A poll that faults, and not in the transport, has read the output register and done nothing
else. Such a fault comes of the word that was read or of the request behind it, and both are looked
at before the host writes a register or pulses the clock. -/
theorem poll_of_fault (hfault : Untransported fault) (h : (rig.poll link).result = .error fault) :
    rig.poll link
      = ⟨.error fault, { rig with device := (link.getOutputs rig.device).2 }, []⟩ := by
  obtain ⟨host, device, bus⟩ := rig
  simp only [poll] at h ⊢
  -- A fault of the read is one of the link. Behind it there is the violation and the exchange.
  split at h
  · rename_i error after hread
    cases h
    exact absurd rfl (hfault error)
  · rename_i word after hread
    rw [hread]
    split at h
    · cases h
    · rename_i hrunning
      rw [if_neg hrunning]
      split at h
      · cases h
        rfl
      · exact exchange_of_fault hfault h

/-! ### The four points -/

/-- A poll is turned away:

- `unread`: the output register cannot be read;
- `halted`: the device has halted, whatever phase it shows;
- `violation`: the word breaks the phase protocol;
- `exhausted`: the transaction reads past the end of the input. -/
inductive TurnedAway (link : Link σ) (rig : Rig σ) : Prop
  | unread (error : LinkError) (hread : (link.getOutputs rig.device).1 = .error error)
  | halted (word : UInt16) (hread : (link.getOutputs rig.device).1 = .ok word)
      (hhalted : (OutputRegister.ofBits word).halted = true)
  | violation (violation : Violation)
      (hpoll : (rig.poll link).result = .error (.protocolViolation violation))
  | exhausted (consumed : Nat) (hpoll : (rig.poll link).result = .error (.inputExhausted consumed))

/-- A register that cannot be read ends the poll. -/
theorem poll_unread {error : LinkError} (h : (link.getOutputs rig.device).1 = .error error) :
    rig.poll link
      = ⟨.error (.link error), { rig with device := (link.getOutputs rig.device).2 }, []⟩ := by
  obtain ⟨host, device, bus⟩ := rig
  obtain ⟨result, after, hread⟩ : ∃ result after, link.getOutputs device = (result, after) :=
    ⟨_, _, rfl⟩
  simp only [hread] at h
  simp only [poll, hread, h, Step.fail]

/-- A device that has halted ends the poll. -/
theorem poll_stopped {word : UInt16} (h : (link.getOutputs rig.device).1 = .ok word)
    (hhalted : (OutputRegister.ofBits word).halted = true) :
    rig.poll link = ⟨.ok .halted, { rig with device := (link.getOutputs rig.device).2 }, []⟩ := by
  obtain ⟨host, device, bus⟩ := rig
  obtain ⟨result, after, hread⟩ : ∃ result after, link.getOutputs device = (result, after) :=
    ⟨_, _, rfl⟩
  simp only [hread] at h
  simp only [poll, hread, h, hhalted, if_true, Step.done]

/-- A poll that is turned away has read the output register and done nothing else. What turned it
away is in its result. -/
theorem TurnedAway.poll_eq (h : TurnedAway link rig) :
    rig.poll link
      = ⟨(rig.poll link).result, { rig with device := (link.getOutputs rig.device).2 }, []⟩ := by
  cases h with
  | unread error hread => rw [poll_unread hread]
  | halted word hread hhalted => rw [poll_stopped hread hhalted]
  | violation violation hpoll =>
      rw [hpoll]
      exact poll_of_fault (fun _ => nofun) hpoll
  | exhausted consumed hpoll =>
      rw [hpoll]
      exact poll_of_fault (fun _ => nofun) hpoll

/-- A poll that is turned away leaves the host, the stores and the trace as they were, and has made
one call to the link, the read. So the next word is served as if the poll had not taken place, and
the same word is turned away again. -/
theorem poll_turned_away (link : Link σ) :
    (∀ rig : Rig (Recorded LinkCall σ), TurnedAway link.recorded rig →
        rig.poll link.recorded
          = ⟨(rig.poll link.recorded).result,
              ⟨rig.host,
                ⟨(link.getOutputs rig.device.device).2, rig.device.calls.push .outputs⟩,
                rig.bus⟩, []⟩)
      ∧ (∀ (rig : Rig σ) (word next : UInt16), TurnedAway (link.displaying word) rig →
        (rig.poll (link.displaying word)).state.poll (link.displaying next)
          = rig.poll (link.displaying next))
      ∧ (∀ (rig : Rig σ) (error : LinkError), (link.getOutputs rig.device).1 = .error error →
        (rig.poll link).result = .error (.link error))
      ∧ ∀ (rig : Rig σ) (word : UInt16), (link.getOutputs rig.device).1 = .ok word →
        (OutputRegister.ofBits word).halted = true → (rig.poll link).result = .ok .halted := by
  refine ⟨?_, ?_, ?_, ?_⟩
  · intro rig h
    exact h.poll_eq
  · intro rig word next h
    rw [h.poll_eq]
    rfl
  · intro rig error h
    rw [poll_unread h]
  · intro rig word h hhalted
    rw [poll_stopped h hhalted]

/-- A host that has latched a read, in front of an input that is empty. -/
def starving : Rig Scripted.Tape :=
  (pollAll Scripted.link [0x106, 0x200, 0x300] ⟨{}, {}, untouched⟩).state

/-- The read fails behind the latches, and fails again if it is polled again. A failed poll has made
one call to the link. -/
theorem poll_turned_away_starving :
    (starving.poll (Scripted.link.displaying 0x400)).result = .error (.inputExhausted 0)
      ∧ (starving.poll (Scripted.link.displaying 0x400)).state.poll
          (Scripted.link.displaying 0x400)
        = starving.poll (Scripted.link.displaying 0x400)
      ∧ (⟨starving.host, ⟨{ outputs := [0x400] }, #[]⟩, starving.bus⟩ :
          Rig (Recorded LinkCall Scripted.Tape)).poll Scripted.link.recorded
        = ⟨.error (.inputExhausted 0),
            ⟨starving.host, ⟨{ made := { outputs := 1 } }, #[.outputs]⟩, starving.bus⟩, []⟩ := by
  obtain ⟨hrecorded, hnext, -, -⟩ := poll_turned_away Scripted.link
  have hstarved : (starving.poll (Scripted.link.displaying 0x400)).result
      = .error (.inputExhausted 0) := by
    decide
  have hwired : ((⟨starving.host, ⟨{ outputs := [0x400] }, #[]⟩, starving.bus⟩ :
      Rig (Recorded LinkCall Scripted.Tape)).poll Scripted.link.recorded).result
        = .error (.inputExhausted 0) := by
    decide
  refine ⟨hstarved, hnext starving 0x400 0x400 (.exhausted 0 hstarved), ?_⟩
  rw [hrecorded _ (.exhausted 0 hwired), hwired]
  rfl

end Rig

end Serial

end TapeBench
