import Mathlib.Tactic.SplitIfs
import TapeBench.Core

/-!
# `TapeBench.Proofs.Core.Latency`: which stages look at the input

Devices keep different values on the input of the core while nothing is to be consumed. That makes
no difference, because of two facts about its stages.

* `edge_of_not_consumes`: a stage that consumes nothing ignores the input.
* `consumes_edge`: a stage consumes a value exactly if the stage before it showed a read.
-/

set_option autoImplicit false

namespace TapeBench.Core

/-- The stage consumes the value on the input. -/
def consumes (core : Core) : Bool :=
  match core.stage with
  | .decode | .apply _ | .acceptInput | .scanDecode _ _ => true
  | .fetch | .loadCell _ | .store _ | .emit _ | .readInput | .scan _ _ | .halted => false

/-- A stage that consumes nothing ignores the input. -/
theorem edge_of_not_consumes {core : Core} (h : core.consumes = false) (valIn other : UInt8) :
    core.edge valIn = core.edge other := by
  obtain ⟨pc, ptr, stage⟩ := core
  cases stage <;> first | rfl | cases h

/-- A stage consumes a value exactly if the stage before it showed a read. This holds of every core,
reached or not, as it is a fact about the edges of the state machine alone. -/
theorem consumes_edge (core : Core) (valIn : UInt8) :
    (core.edge valIn).consumes = core.request.op.isRead := by
  obtain ⟨pc, ptr, stage⟩ := core
  cases stage with
  | fetch | loadCell | store | emit | readInput | acceptInput | scan | halted => rfl
  | decode =>
      simp only [edge, decode, nextInstruction]
      split <;> first | rfl | (split <;> rfl)
  | apply wanted =>
      cases wanted <;> simp only [edge, apply, seek, nextInstruction] <;>
        first | rfl | (split <;> rfl)
  | scanDecode direction depth =>
      simp only [edge, scan, walk, nextInstruction]
      split_ifs <;> rfl

/-- A stage that asks for something consumes no value. -/
theorem not_consumes_of_asks {core : Core} (h : core.request.op ≠ .noOp) :
    core.consumes = false := by
  obtain ⟨pc, ptr, stage⟩ := core
  cases stage <;> first | rfl | exact absurd rfl h

/-- A read carries nothing out. -/
theorem value_of_isRead {core : Core} (h : core.request.op.isRead = true) :
    core.request.value = 0 := by
  obtain ⟨pc, ptr, stage⟩ := core
  cases stage <;> first | rfl | cases h

/-- Inputs that agree where they are consumed lead to the same state. -/
theorem edge_congr {core : Core} {valIn other : UInt8} (h : core.consumes = true → valIn = other) :
    core.edge valIn = core.edge other := by
  cases hconsumes : core.consumes with
  | true => rw [h hconsumes]
  | false => exact edge_of_not_consumes hconsumes valIn other

end TapeBench.Core
