import TapeBench.Proofs.Peripheral
import TapeBench.Proofs.Serial.Transfers

/-!
# `TapeBench.Proofs.Serial.Observations`: polls of a link that shows given words

What a host does depends on its link only through the words that it reads and through the calls
that fail. So a host can be run on any sequence of words, over any link whose calls do not fail.

* `Refused`, `observe_cases`: what a host makes of a word, and why it refuses one.
* `Link.answering`: a link that shows a given word at the next poll.
* `Link.Reliable`: the calls that write do not fail.
* `Rig.pollAll`: one poll for each word, up to the first fault.
* `Rig.poll_violation`, `Rig.poll_quiet`, `Rig.poll_served`, `Rig.poll_failed`: one poll, by what
  the host makes of the word.
-/

set_option autoImplicit false

namespace TapeBench.Serial

variable {σ : Type}

/-! ### One observation -/

/-- A code stands for one phase, or it is refused. An output register has room for eight codes, and
there are five phases. -/
theorem ofState_cases (code : UInt8) :
    (∃ phase : Phase, code = phase.state)
      ∨ (∀ phase : Phase, code ≠ phase.state)
        ∧ Phase.ofState code = .error (.unknownState code) := by
  by_cases h : ∃ phase : Phase, code = phase.state
  · exact .inl h
  · refine .inr ⟨fun phase heq => h ⟨phase, heq⟩, ?_⟩
    unfold Phase.ofState
    split
    · exact absurd ⟨.idle, rfl⟩ h
    · exact absurd ⟨.opcode, rfl⟩ h
    · exact absurd ⟨.addressHigh, rfl⟩ h
    · exact absurd ⟨.addressLow, rfl⟩ h
    · exact absurd ⟨.execute, rfl⟩ h
    · rfl

/-- Why a word is refused behind a phase: its code stands for no phase, or for one that is neither
held nor entered. -/
inductive Refused (last : Phase) (code : UInt8) : Violation → Prop
  | unknown (h : ∀ phase : Phase, code ≠ phase.state) : Refused last code (.unknownState code)
  | illegal {next : Phase} (hcode : code = next.state) (hheld : last ≠ next)
      (henters : last.enters next = false) : Refused last code (.illegalTransition last next)

/-- What a host makes of an output register: a violation of the protocol, a phase that is held, or
the next phase. The three cases exclude each other. -/
theorem observe_cases (host : Host) (shown : OutputRegister) :
    (∃ violation, host.observe shown = .error violation
        ∧ Refused host.phase shown.state violation)
      ∨ ∃ phase transition, host.observe shown = .ok (phase, transition)
        ∧ shown.state = phase.state
        ∧ (transition = .held ∧ host.phase = phase
          ∨ transition = .entered ∧ host.phase ≠ phase ∧ host.phase.enters phase = true) := by
  rcases ofState_cases shown.state with ⟨phase, hphase⟩ | ⟨hunknown, hcode⟩
  · by_cases hheld : host.phase = phase
    · refine .inr ⟨phase, .held, ?_, hphase, .inl ⟨rfl, hheld⟩⟩
      simp [Host.observe, hphase, Phase.observe, hheld]
    · cases henters : host.phase.enters phase with
      | true =>
          refine .inr ⟨phase, .entered, ?_, hphase, .inr ⟨rfl, hheld, henters⟩⟩
          simp [Host.observe, hphase, Phase.observe, hheld, henters]
      | false =>
          refine .inl ⟨_, ?_, .illegal hphase hheld henters⟩
          simp [Host.observe, hphase, Phase.observe, hheld, henters]
  · exact .inl ⟨_, by simp [Host.observe, hcode], .unknown hunknown⟩

/-! ### Links that show given words -/

namespace Link

/-- The link, with `word` in its output register. Reading the register does to the link what it
does anyway. -/
def answering (link : Link σ) (word : UInt16) : Link σ :=
  { link with getOutputs := fun device => (.ok word, (link.getOutputs device).2) }

/-- Neither writing the input register nor pulsing the clock fails. -/
structure Reliable (link : Link σ) : Prop where
  setInputs : ∀ bits device, (link.setInputs bits device).1 = .ok ()
  stepClock : ∀ device, (link.stepClock device).1 = .ok ()

/-- What is read makes no difference to the writes and the pulses. -/
theorem Reliable.answering {link : Link σ} (h : link.Reliable) (word : UInt16) :
    (link.answering word).Reliable :=
  ⟨h.setInputs, h.stepClock⟩

end Link

namespace Rig

/-- One poll for each word, up to the first fault. -/
def pollAll (link : Link σ) : List UInt16 → Rig σ → Step (Rig σ) Unit
  | [], rig => .done () rig []
  | word :: rest, rig =>
    (rig.poll (link.answering word)).andThen fun _ rig => pollAll link rest rig

/-- A poll of a link that shows a word is a poll of a link that is given the word. -/
theorem poll_answering {link : Link σ} {rig : Rig σ} {word : UInt16} {after : σ}
    (h : link.getOutputs rig.device = (.ok word, after)) :
    rig.poll link = rig.poll (link.answering word) := by
  obtain ⟨host, device, bus⟩ := rig
  simp only at h
  simp only [poll, Link.answering, h]
  rfl

/-! ### One poll -/

section Calls

variable {link : Link σ} (hlink : link.Reliable) (host : Host) (device : σ) (bus : Peripheral)

include hlink

/-- A reliable link takes a pulse. -/
theorem pulse_reliable (phase : Phase) :
    ∃ after, ∃ lines : List Message, (⟨host, device, bus⟩ : Rig σ).pulse link phase
      = ⟨.ok (.running phase), ⟨{ host with phase, steps := host.steps + 1 }, after, bus⟩,
          lines.map Note.message⟩ := by
  have hstep := hlink.stepClock device
  obtain ⟨result, after, hcall⟩ :
      ∃ result after, link.stepClock device = (result, after) := ⟨_, _, rfl⟩
  rw [hcall] at hstep
  obtain rfl : result = .ok () := hstep
  exact ⟨after, link.stepMessages device, by simp only [pulse, Link.call, hcall, Step.done]⟩

/-- A reliable link takes the input register. -/
theorem sendInputs_reliable :
    ∃ after, (⟨host, device, bus⟩ : Rig σ).sendInputs link = ⟨.ok (), ⟨host, after, bus⟩, []⟩ := by
  have hset := hlink.setInputs host.inputs.toBits device
  obtain ⟨result, after, hcall⟩ :
      ∃ result after, link.setInputs host.inputs.toBits device = (result, after) := ⟨_, _, rfl⟩
  rw [hcall] at hset
  obtain rfl : result = .ok () := hset
  exact ⟨after, by simp only [sendInputs, Link.call, hcall, Step.within]⟩

/-- A phase that is entered is served before the link takes the input register and a pulse. The link
is reliable here, so both of them succeed, and all that they add to the notes are lines of the log.
-/
theorem exchange_entered {phase : Phase} {byte : UInt8} {served : Host} {next : Peripheral}
    {notes : List Note}
    (henter : (⟨host.latch phase byte, device, bus⟩ : Rig σ).enter phase byte
      = ⟨.ok (), ⟨served, device, next⟩, notes⟩) :
    ∃ after, ∃ lines : List Message,
      (⟨host, device, bus⟩ : Rig σ).exchange link phase .entered byte
        = ⟨.ok (.running phase), ⟨{ served with phase, steps := served.steps + 1 }, after, next⟩,
            notes ++ lines.map Note.message⟩ := by
  obtain ⟨sent, hsend⟩ := sendInputs_reliable hlink served device next
  obtain ⟨after, lines, hpulse⟩ := pulse_reliable hlink served sent next phase
  exact ⟨after, lines, by
    simp only [exchange, henter, Step.andThen, hsend, hpulse, List.append_nil]⟩

end Calls

section Poll

variable (link : Link σ) {host : Host} (device : σ) (bus : Peripheral) {word : UInt16}
  (hrunning : (OutputRegister.ofBits word).halted = false)

include hrunning

/-- A word that breaks the protocol is refused. -/
theorem poll_violation {violation : Violation}
    (h : host.observe (.ofBits word) = .error violation) :
    ∃ last, (⟨host, device, bus⟩ : Rig σ).poll (link.answering word)
      = ⟨.error (.protocolViolation violation), last, []⟩ := by
  simp only [poll, Link.answering, hrunning, h, Bool.false_eq_true, if_false]
  exact ⟨_, rfl⟩

/-- If the latched request cannot be served, the poll faults, with the fault of the stores. -/
theorem poll_failed {next : Peripheral}
    (h : host.observe (.ofBits word) = .ok (.execute, .entered)) {fault : Fault} {notes : List Note}
    (hfailed : bus.resolve (host.request (OutputRegister.ofBits word).busOut)
      = ⟨.error fault, next, notes⟩) :
    ∃ last more, (⟨host, device, bus⟩ : Rig σ).poll (link.answering word)
      = ⟨.error fault, last, more⟩ := by
  obtain ⟨more, hexecute⟩ := execute_failed (link.getOutputs device).2 hfailed
  have henter : (⟨host.latch .execute (OutputRegister.ofBits word).busOut,
        (link.getOutputs device).2, bus⟩ : Rig σ).enter .execute (OutputRegister.ofBits word).busOut
      = ⟨.error fault, ⟨host, (link.getOutputs device).2, next⟩, more⟩ := hexecute
  simp only [poll, Link.answering, hrunning, h, Bool.false_eq_true, if_false, exchange, henter,
    Step.andThen]
  exact ⟨_, _, rfl⟩

variable {link} (hlink : link.Reliable)

include hlink

/-- A word that does not enter the execution phase is latched, and reaches no store. That takes in
an execution phase that is held: its request was served when it was entered. -/
theorem poll_quiet {phase : Phase} {transition : Transition}
    (h : host.observe (.ofBits word) = .ok (phase, transition))
    (hquiet : transition = .entered → phase ≠ .execute) :
    ∃ inputs after, ∃ lines : List Message,
      (⟨host, device, bus⟩ : Rig σ).poll (link.answering word)
        = ⟨.ok (.running phase),
            ⟨{ host.latch phase (OutputRegister.ofBits word).busOut with
                phase, inputs, steps := host.steps + 1 }, after, bus⟩,
            lines.map Note.message⟩ := by
  have hpoll : (⟨host, device, bus⟩ : Rig σ).poll (link.answering word)
      = (⟨host, (link.getOutputs device).2, bus⟩ : Rig σ).exchange (link.answering word) phase
          transition (OutputRegister.ofBits word).busOut := by
    simp only [poll, Link.answering, hrunning, h, Bool.false_eq_true, if_false]
  rw [hpoll]
  have hsteps : (host.latch phase (OutputRegister.ofBits word).busOut).steps = host.steps := by
    cases phase <;> rfl
  cases transition with
  | held =>
      obtain ⟨after, lines, hpulse⟩ := pulse_reliable (hlink.answering word)
        (host.latch phase (OutputRegister.ofBits word).busOut) (link.getOutputs device).2 bus phase
      exact ⟨_, after, lines, by rw [exchange, hpulse, hsteps]⟩
  | entered =>
      -- Outside the execution phase, entering writes `op_done` at most.
      have henter : ∃ inputs,
          (⟨host.latch phase (OutputRegister.ofBits word).busOut, (link.getOutputs device).2,
            bus⟩ : Rig σ).enter phase (OutputRegister.ofBits word).busOut
          = ⟨.ok (), ⟨{ host.latch phase (OutputRegister.ofBits word).busOut with inputs },
              (link.getOutputs device).2, bus⟩, []⟩ := by
        cases phase with
        | idle | opcode | addressHigh | addressLow => exact ⟨_, rfl⟩
        | execute => exact absurd rfl (hquiet rfl)
      obtain ⟨inputs, henter⟩ := henter
      obtain ⟨after, lines, hexchange⟩ := exchange_entered (hlink.answering word) host
        (link.getOutputs device).2 bus henter
      exact ⟨inputs, after, lines, by rw [hexchange, hsteps, List.nil_append]⟩

/-- A word that enters the execution phase has the latched request served. The byte of this word is
the value of the request, and the latches hold the operation and the address from the words before.
-/
theorem poll_served {next : Peripheral}
    (h : host.observe (.ofBits word) = .ok (.execute, .entered)) {value : UInt8} {notes : List Note}
    (hserved : bus.resolve (host.request (OutputRegister.ofBits word).busOut)
      = ⟨.ok value, next, notes⟩) :
    ∃ inputs after, ∃ lines : List Message,
      (⟨host, device, bus⟩ : Rig σ).poll (link.answering word)
        = ⟨.ok (.running .execute),
            ⟨{ host with
                phase := .execute, inputs, steps := host.steps + 1, commits := host.commits + 1 },
              after, next⟩,
            transferNotes bus (host.request (OutputRegister.ofBits word).busOut) host.steps notes
              value ++ lines.map Note.message⟩ := by
  have hpoll : (⟨host, device, bus⟩ : Rig σ).poll (link.answering word)
      = (⟨host, (link.getOutputs device).2, bus⟩ : Rig σ).exchange (link.answering word) .execute
          .entered (OutputRegister.ofBits word).busOut := by
    simp only [poll, Link.answering, hrunning, h, Bool.false_eq_true, if_false]
  -- The latch of the phase does not touch the request, which is the one that `hserved` speaks of.
  have henter : (⟨host.latch .execute (OutputRegister.ofBits word).busOut,
        (link.getOutputs device).2, bus⟩ : Rig σ).enter .execute (OutputRegister.ofBits word).busOut
      = ⟨.ok (), ⟨host.committed (host.request (OutputRegister.ofBits word).busOut) value,
          (link.getOutputs device).2, next⟩,
          transferNotes bus (host.request (OutputRegister.ofBits word).busOut) host.steps notes
            value⟩ := execute_served (link.getOutputs device).2 hserved
  obtain ⟨after, lines, hexchange⟩ := exchange_entered (hlink.answering word) host
    (link.getOutputs device).2 bus henter
  exact ⟨_, after, lines, by rw [hpoll, hexchange]; rfl⟩

end Poll

end Rig

end TapeBench.Serial
