import TapeBench.Case

/-!
# `TapeBench.Proofs.Peripheral`: what serving one request can come to

* `Peripheral.exists_lines_of_resolve`: the stores log, and leave the trace to the drivers.
* `Peripheral.exhausted_of_resolve`: a request fails for one reason only.
* `Case.exists_of_stores`, `Case.exists_stores_of_le`: the stores from which a run starts.
-/

set_option autoImplicit false

namespace TapeBench

open Bus (Request)

/-- A read of the input logs lines and fails for one reason only: the input is used up, and no byte
stands in for it. A read that fails has changed nothing. -/
theorem Channel.read_cases (channel : Channel) :
    (∃ byte next, ∃ lines : List Message, channel.read = ⟨.ok byte, next, lines.map Note.message⟩)
      ∨ channel.fallsBack = false
        ∧ channel.read = ⟨.error (.inputExhausted channel.consumed), channel, []⟩ := by
  obtain ⟨input, consumed, output, onExhausted⟩ := channel
  cases input with
  | cons byte rest => exact .inl ⟨byte, _, [], rfl⟩
  | nil =>
      cases onExhausted with
      | fail => exact .inr ⟨rfl, rfl⟩
      | returnByte byte => exact .inl ⟨byte, _, [.inputSubstituted byte], rfl⟩

namespace Peripheral

variable {bus next : Peripheral} {request : Request} {result : Except Fault UInt8}
  {notes : List Note}

/-- The stores log what they do, and leave the trace to the drivers, which know the time of a
request. -/
theorem exists_lines_of_resolve (h : bus.resolve request = ⟨result, next, notes⟩) :
    ∃ lines : List Message, notes = lines.map Note.message := by
  obtain ⟨program, data, channel, tally⟩ := bus
  obtain ⟨op, addr, value⟩ := request
  cases op with
  | readIo =>
      rcases channel.read_cases with ⟨byte, after, lines, hread⟩ | ⟨-, hread⟩
      · simp only [resolve, hread] at h
        cases h
        exact ⟨lines ++ [.served .readIo addr value byte], by rw [List.map_append]; rfl⟩
      · simp only [resolve, hread] at h
        cases h
        exact ⟨[], rfl⟩
  | noOp | readProgram | readData | writeData | writeIo =>
      cases h
      exact ⟨[_], rfl⟩

/-- A request fails at the end of the input and nowhere else. The fault tells how many bytes were
consumed by then. -/
theorem exhausted_of_resolve {fault : Fault}
    (h : bus.resolve request = ⟨.error fault, next, notes⟩) :
    fault = .inputExhausted bus.channel.consumed := by
  obtain ⟨program, data, channel, tally⟩ := bus
  obtain ⟨op, addr, value⟩ := request
  cases op with
  | readIo =>
      rcases channel.read_cases with ⟨byte, after, lines, hread⟩ | ⟨-, hread⟩
      · simp only [resolve, hread] at h
        cases h
      · simp only [resolve, hread] at h
        cases h
        rfl
  | noOp | readProgram | readData | writeData | writeIo => cases h

end Peripheral

/-! ### Fresh stores -/

open Memory (Rom Ram)

/-- The stores of a case are its images, behind its input and the policy that applies, with nothing
counted yet. -/
theorem Case.exists_of_stores {case : Case} {config : Config} {bus : Peripheral}
    (h : case.stores config = .ok bus) :
    ∃ program data, Rom.load case.program = .ok program ∧ Ram.load case.dataImage = .ok data
      ∧ bus = ⟨program, data, .ofInput case.input (case.policy config .addressed), {}⟩ := by
  unfold Case.stores at h
  split at h
  · cases h
  · rename_i program hprogram
    split at h
    · cases h
    · rename_i data hdata
      cases h
      exact ⟨program, data, hprogram, hdata, rfl⟩

/-- A case whose images fit has stores. -/
theorem Case.exists_stores_of_le (case : Case) (config : Config)
    (hprogram : case.program.size ≤ addressSpace)
    (himage : case.dataImage.size ≤ addressSpace) :
    ∃ bus, case.stores config = .ok bus := by
  have hrom : Rom.load case.program = .ok ⟨case.program, hprogram⟩ := dif_pos hprogram
  obtain ⟨data, hram⟩ : ∃ data, Ram.load case.dataImage = .ok data := ⟨_, dif_pos himage⟩
  exact ⟨_, by rw [Case.stores, hrom, hram]⟩

end TapeBench
