import Mathlib.Algebra.BigOperators.Group.Finset.Basic
import Mathlib.Data.UInt
import TapeBench.Core
import TapeBench.Memory.Rom

/-!
# `TapeBench.Proofs.Core.Depth`: how many brackets are open

Addresses form a ring. From a bracket on, in the direction in which its partner is looked for, every
byte opens a level, closes one, or does neither. `Direction.depth` adds that up, and the partner of
the bracket is the first byte at which the sum is zero.

* `Direction.address`: the address a number of steps away.
* `Direction.depth`: the brackets that are open behind a number of steps.
* `Direction.depth_revolution`: one revolution adds the sum of all bytes, whatever was open before.
* `Matched`: a `[` and the first `]` behind it at which no bracket is open any more.
* `depth_backward`: the depth to the left of a `]` is the depth to the right of an address in front
  of it, up to a constant. So both directions agree on which brackets belong together.
-/

set_option autoImplicit false

namespace TapeBench

open Memory (Rom)

namespace Direction

/-- The address a number of steps away. Addresses wrap around. -/
def address (direction : Direction) (start : UInt16) (steps : Nat) : UInt16 :=
  match direction with
  | forward => start + .ofNat steps
  | backward => start - .ofNat steps

/-- What a byte adds to the number of open brackets. -/
def weight (direction : Direction) (byte : UInt8) : Int :=
  if byte = direction.opener.byte then 1
  else if byte = direction.closer.byte then -1
  else 0

/-- Number of brackets that are open behind the byte `steps` steps from `start`, counted from the
byte at `start` on. -/
def depth (direction : Direction) (program : Rom) (start : UInt16) (steps : Nat) : Int :=
  ∑ i ∈ Finset.range (steps + 1), direction.weight (program.read (direction.address start i))

/-! ### Addresses -/

/-- No step away is the address itself, in both directions. -/
@[simp] theorem address_zero (direction : Direction) (start : UInt16) :
    direction.address start 0 = start := by
  cases direction with
  | forward => exact UInt16.add_zero start
  | backward => exact UInt16.sub_zero start

/-- One step further is the next address. -/
theorem address_succ (direction : Direction) (start : UInt16) (steps : Nat) :
    direction.address start (steps + 1) = direction.advance (direction.address start steps) := by
  have hsteps : UInt16.ofNat (steps + 1) = .ofNat steps + 1 := UInt16.ofNat_add steps 1
  cases direction with
  | forward =>
      simp only [address, advance, hsteps]
      exact (add_assoc start _ 1).symm
  | backward =>
      simp only [address, advance, hsteps]
      exact sub_add_eq_sub_sub start _ 1

/-- A revolution leads back to where it began. -/
theorem address_revolution (direction : Direction) (start : UInt16) (steps : Nat) :
    direction.address start (addressSpace + steps) = direction.address start steps := by
  have hsteps : UInt16.ofNat (addressSpace + steps) = .ofNat steps := by
    rw [UInt16.ofNat_add, show UInt16.ofNat addressSpace = 0 from rfl, UInt16.zero_add]
  cases direction <;> simp only [address, hsteps]

/-- To the right, the number of an address grows, unless it wraps around. -/
theorem toNat_address_forward {start : UInt16} {steps : Nat} (h : start.toNat + steps < 65536) :
    (forward.address start steps).toNat = start.toNat + steps := by
  rw [address, UInt16.toNat_add, UInt16.toNat_ofNat_of_lt' (by rw [UInt16.size]; omega)]
  omega

/-- To the left it shrinks. -/
theorem toNat_address_backward {start : UInt16} {steps : Nat} (h : steps ≤ start.toNat) :
    (backward.address start steps).toNat = start.toNat - steps := by
  have hstart := start.toNat_lt
  rw [address, UInt16.toNat_sub, UInt16.toNat_ofNat_of_lt' (by rw [UInt16.size]; omega)]
  omega

/-! ### Depth -/

/-- A bracket opens its own level. -/
theorem weight_opener (direction : Direction) : direction.weight direction.opener.byte = 1 :=
  if_pos rfl

/-- A zero byte is no bracket. -/
theorem weight_zero (direction : Direction) : direction.weight 0 = 0 := by
  cases direction <;> rfl

/-- What opens a level in one direction closes one in the other. -/
theorem weight_backward (byte : UInt8) : backward.weight byte = -forward.weight byte := by
  by_cases hopen : byte = Instruction.loopOpen.byte
  · subst hopen
    rfl
  · by_cases hclose : byte = Instruction.loopClose.byte
    · subst hclose
      rfl
    · simp [weight, opener, closer, hopen, hclose]

/-- A byte moves the depth by one at most. The three cases come in the order in which the core asks
for them: opener, closer, anything else. -/
theorem weight_cases (direction : Direction) (byte : UInt8) :
    (byte = direction.opener.byte ∧ direction.weight byte = 1)
      ∨ (byte ≠ direction.opener.byte ∧ byte = direction.closer.byte
        ∧ direction.weight byte = -1)
      ∨ (byte ≠ direction.opener.byte ∧ byte ≠ direction.closer.byte
        ∧ direction.weight byte = 0) := by
  by_cases hopen : byte = direction.opener.byte
  · exact .inl ⟨hopen, if_pos hopen⟩
  · by_cases hclose : byte = direction.closer.byte
    · exact .inr (.inl ⟨hopen, hclose, by rw [weight, if_neg hopen, if_pos hclose]⟩)
    · exact .inr (.inr ⟨hopen, hclose, by rw [weight, if_neg hopen, if_neg hclose]⟩)

variable (direction : Direction) (program : Rom) (start : UInt16)

/-- Behind the first byte, the depth is what this byte adds. -/
theorem depth_zero : direction.depth program start 0 = direction.weight (program.read start) := by
  rw [depth, Finset.sum_range_one, address_zero]

/-- Each further byte adds its weight. -/
theorem depth_succ (steps : Nat) :
    direction.depth program start (steps + 1)
      = direction.depth program start steps
        + direction.weight (program.read (direction.address start (steps + 1))) :=
  Finset.sum_range_succ _ _

/-- A revolution adds what all bytes of the address space come to. -/
theorem depth_revolution (steps : Nat) :
    direction.depth program start (addressSpace + steps)
      = direction.depth program start (addressSpace - 1) + direction.depth program start steps := by
  have hlast : addressSpace - 1 + 1 = addressSpace := rfl
  rw [depth, depth, depth, hlast, Nat.add_assoc, Finset.sum_range_add]
  simp only [address_revolution]

/-- Some steps further, the depth has moved by as much at most, in either direction. So a depth that
comes back to zero has not been larger than the steps that are left for it. -/
theorem depth_add_le (steps more : Nat) :
    direction.depth program start (steps + more) ≤ direction.depth program start steps + more
      ∧ direction.depth program start steps
        ≤ direction.depth program start (steps + more) + more := by
  induction more with
  | zero => simp
  | succ more ih =>
      have hstep := depth_succ direction program start (steps + more)
      have hweight := weight_cases direction
        (program.read (direction.address start (steps + more + 1)))
      rw [show steps + (more + 1) = steps + more + 1 from rfl]
      omega

variable {direction program start}

/-- Up to the first byte at which no bracket is open, some are. The depth begins at one and moves by
one at most, so it cannot come below zero without being zero before. -/
theorem depth_pos (hbracket : program.read start = direction.opener.byte) {steps : Nat}
    (hopen : ∀ i < steps, direction.depth program start i ≠ 0) :
    ∀ i < steps, 1 ≤ direction.depth program start i := by
  intro i
  induction i with
  | zero =>
      intro _
      rw [depth_zero, hbracket, weight_opener]
  | succ i ih =>
      intro hi
      have hbefore := ih (by omega)
      have hhere := hopen (i + 1) hi
      have hweight := weight_cases direction (program.read (direction.address start (i + 1)))
      rw [depth_succ] at hhere ⊢
      omega

/-! ### Both directions -/

variable (program start)

/-- Some steps back from an address lies an address fewer steps on. -/
theorem address_backward {steps back : Nat} (h : back ≤ steps) :
    backward.address (forward.address start steps) back = forward.address start (steps - back) := by
  have hsteps := UInt16.ofNat_sub h
  simp only [address, hsteps]
  exact add_sub_assoc start _ _

/-- To the left of an address, the depth is that to the right of an address in front of it, up to a
constant. Both count the brackets of a stretch, from its two ends, and the opener of one direction
is the closer of the other. -/
theorem depth_backward {steps back : Nat} (h : back < steps) :
    backward.depth program (forward.address start steps) back
      = forward.depth program start (steps - 1 - back) - forward.depth program start steps := by
  -- Induction on the bytes that the walk to the left has passed. Each of them is one that the walk
  -- to the right passed with the opposite weight.
  induction back with
  | zero =>
      have hlast := depth_succ forward program start (steps - 1)
      rw [show steps - 1 + 1 = steps by omega] at hlast
      rw [depth_zero, weight_backward, Nat.sub_zero]
      omega
  | succ back ih =>
      have hbefore := ih (by omega)
      have hlast := depth_succ forward program start (steps - 1 - (back + 1))
      rw [show steps - 1 - (back + 1) + 1 = steps - (back + 1) by omega] at hlast
      rw [show steps - 1 - back = steps - (back + 1) by omega] at hbefore
      rw [depth_succ, address_backward start h.le, weight_backward]
      omega

/-- From one end to the other, both directions see the same brackets, each of them with the opposite
sign. -/
theorem depth_backward_self (steps : Nat) :
    backward.depth program (forward.address start steps) steps
      = -forward.depth program start steps := by
  cases steps with
  | zero => rw [depth_zero, depth_zero, address_zero, weight_backward]
  | succ steps =>
      have hbefore := depth_backward program start (Nat.lt_succ_self steps)
      simp only [show steps + 1 - 1 - steps = 0 by omega, Nat.succ_eq_add_one, depth_zero]
        at hbefore
      rw [depth_succ, address_backward start (Nat.le_refl _), Nat.sub_self, address_zero,
        weight_backward]
      omega

end Direction

/-! ### Pairs of brackets -/

/-- The brackets at two addresses belong together:

- `opens`: there is a `[` at the first one;
- `closes`: there is a `]` at the second one;
- `lt`: the `[` comes first;
- `returns`: from the `[` to the `]`, as many brackets are closed as are opened;
- `first`: and nowhere before the `]`. -/
structure Matched (program : Rom) (left right : UInt16) : Prop where
  opens : program.read left = Instruction.loopOpen.byte
  closes : program.read right = Instruction.loopClose.byte
  lt : left < right
  returns : Direction.forward.depth program left (right.toNat - left.toNat) = 0
  first : ∀ i < right.toNat - left.toNat, Direction.forward.depth program left i ≠ 0

namespace Matched

variable {program : Rom} {left right : UInt16}

/-- The distance between two addresses leads from one to the other. -/
theorem address_right (h : left ≤ right) :
    Direction.forward.address left (right.toNat - left.toNat) = right := by
  have hle : left.toNat ≤ right.toNat := h
  rw [Direction.address, UInt16.ofNat_sub hle, UInt16.ofNat_toNat, UInt16.ofNat_toNat]
  grind

/-- So it does in the other direction. -/
theorem address_left (h : left ≤ right) :
    Direction.backward.address right (right.toNat - left.toNat) = left := by
  have hle : left.toNat ≤ right.toNat := h
  rw [Direction.address, UInt16.ofNat_sub hle, UInt16.ofNat_toNat, UInt16.ofNat_toNat]
  grind

/-- To the left of the `]`, the depth runs through what it was to the right of the `[`. -/
theorem depth_left (h : Matched program left right) {i : Nat}
    (hi : i < right.toNat - left.toNat) :
    Direction.backward.depth program right i
      = Direction.forward.depth program left (right.toNat - left.toNat - 1 - i) := by
  have hdepth := Direction.depth_backward program left hi
  rw [address_right (UInt16.le_of_lt h.lt), h.returns] at hdepth
  omega

/-- And is back at zero at the `[`. -/
theorem returns_left (h : Matched program left right) :
    Direction.backward.depth program right (right.toNat - left.toNat) = 0 := by
  have hdepth := Direction.depth_backward_self program left (right.toNat - left.toNat)
  rw [address_right (UInt16.le_of_lt h.lt), h.returns] at hdepth
  exact hdepth

/-- If the depth comes back to zero between a `]` and address zero, the `]` has a partner: the first
address where it does. In between no depth is zero, and seen from there to the right none is either,
which is what `Matched` asks for. -/
theorem exists_left (hclose : program.read right = Instruction.loopClose.byte) {steps : Nat}
    (hsteps : steps ≤ right.toNat) (hzero : Direction.backward.depth program right steps = 0) :
    ∃ left, Matched program left right := by
  classical
  -- The partner is where the depth is zero for the first time.
  have hexists : ∃ i, Direction.backward.depth program right i = 0 := ⟨steps, hzero⟩
  have hreturn := Nat.find_spec hexists
  have hopen : ∀ i < Nat.find hexists, Direction.backward.depth program right i ≠ 0 :=
    fun i hi => Nat.find_min hexists hi
  have hfirst : Nat.find hexists ≤ right.toNat := (Nat.find_min' hexists hzero).trans hsteps
  generalize Nat.find hexists = n at hreturn hopen hfirst
  have hpos := Direction.depth_pos hclose hopen
  obtain ⟨m, rfl⟩ : ∃ m, n = m + 1 := by
    cases n with
    | zero =>
        rw [Direction.depth_zero, hclose] at hreturn
        exact absurd hreturn (by decide)
    | succ m => exact ⟨m, rfl⟩
  have hleft : (right - .ofNat (m + 1)).toNat = right.toNat - (m + 1) :=
    Direction.toNat_address_backward hfirst
  have hdistance : right.toNat - (right - .ofNat (m + 1)).toNat = m + 1 := by omega
  have haddress : Direction.forward.address (right - .ofNat (m + 1)) (m + 1) = right :=
    UInt16.sub_add_cancel _ _
  have hself := Direction.depth_backward_self program (right - .ofNat (m + 1)) (m + 1)
  rw [haddress, hreturn] at hself
  refine ⟨right - .ofNat (m + 1), ?_, hclose, ?_, ?_, ?_⟩
  · -- The depth falls from one to zero there, so the byte is a bracket.
    have hlast := Direction.depth_succ .backward program right m
    have hbefore := hpos m (Nat.lt_succ_self m)
    have hweight := Direction.weight_cases .backward
      (program.read (right - .ofNat (m + 1)))
    rw [hreturn, Direction.address] at hlast
    rcases hweight with ⟨-, hone⟩ | ⟨-, hbyte, -⟩ | ⟨-, -, hnone⟩
    · omega
    · exact hbyte
    · omega
  · rw [UInt16.lt_iff_toNat_lt]
    omega
  · rw [hdistance]
    omega
  · intro i hi
    rw [hdistance] at hi
    have hlt : m - i < m + 1 := by omega
    have hback := Direction.depth_backward program (right - .ofNat (m + 1)) hlt
    have hnonzero := hopen (m - i) (by omega)
    rw [haddress, show m + 1 - 1 - (m - i) = i by omega] at hback
    omega

end Matched

end TapeBench
