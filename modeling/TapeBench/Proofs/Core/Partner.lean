import TapeBench.Proofs.Core.Jump

/-!
# `TapeBench.Proofs.Core.Partner`: a jump leads behind the partner

Brackets belong together by the text alone: `Matched` counts from a `[` to the right. A jump at a
`]` counts to the left, and finds the same pair. Neither count can overflow, because each bracket
that is open where the walk is has to be closed on the rest of its way.

* `Jump.LandsAt`: the jump leads to an address, over a number of bytes.
* `Jump.landsAt_of_returns`: it does, if the depth comes back to zero before a zero byte.
* `Jump.halts_of_zero`: it stops the core, if a zero byte comes first.
* `jump_finds_partner`: both jumps of a pair lead behind the other bracket, and a jump without a
  partner stops the core.
-/

set_option autoImplicit false

namespace TapeBench

open Bus (Op)
open Memory (Rom)

/-- There is no zero byte between two addresses. -/
def NonzeroBetween (program : Rom) (left right : UInt16) : Prop :=
  ∀ addr, left < addr → addr < right → program.read addr ≠ 0

namespace Jump

/-- The jump leads to `target`, over `steps` bytes:

- `lands`: behind two edges for each byte and the one that makes the jump, the core fetches at
  `target`, with its cell pointer where it was;
- `nesting`: until then the core is on its walk, with at most 32768 brackets open;
- `quiet`: until then it asks for program bytes, or for nothing. -/
structure LandsAt (jump : Jump) (steps : Nat) (target : UInt16) : Prop where
  lands : jump.core (1 + 2 * steps) = ⟨target, jump.ptr, .fetch⟩
  nesting : ∀ n < 2 * steps, ∃ pc depth, 1 ≤ depth ∧ depth ≤ 32768
    ∧ (jump.core (1 + n) = ⟨pc, jump.ptr, .scan jump.direction depth⟩
      ∨ jump.core (1 + n) = ⟨pc, jump.ptr, .scanDecode jump.direction depth⟩)
  quiet : ∀ n < 2 * steps, (jump.core (1 + n)).request.op = .readProgram
    ∨ (jump.core (1 + n)).request.op = .noOp

/-- The jump stops the core, behind two edges for each of `steps` bytes and the one that makes the
jump at the latest. -/
def HaltsWithin (jump : Jump) (steps : Nat) : Prop :=
  ∃ n ≤ 1 + 2 * steps, (jump.core n).halted = true

variable {jump : Jump} {steps : Nat}

/-! ### With a partner -/

/-- No more than half of the bytes can be open brackets, because each has to be closed. -/
theorem depth_le_of_returns (hreturns : jump.depth steps = 0) {i : Nat} (hi : i ≤ steps) :
    2 * jump.depth i ≤ steps + 1 := by
  have hopened := (Direction.depth_add_le jump.direction jump.program jump.start 0 i).1
  have hclosed := (Direction.depth_add_le jump.direction jump.program jump.start i (steps - i)).2
  have hstart : jump.direction.depth jump.program jump.start 0 = 1 := jump.depth_zero
  have hend : jump.direction.depth jump.program jump.start steps = 0 := hreturns
  rw [Nat.zero_add, hstart] at hopened
  rw [Nat.add_sub_of_le hi, hend] at hclosed
  show 2 * jump.direction.depth jump.program jump.start i ≤ steps + 1
  omega

/-- On a walk, the core asks for program bytes or for nothing. -/
theorem request_of_walks {stage : Stage} {pc ptr depth : UInt16} {direction : Direction}
    (h : stage = .scan direction depth ∨ stage = .scanDecode direction depth) :
    (Core.request ⟨pc, ptr, stage⟩).op = .readProgram
      ∨ (Core.request ⟨pc, ptr, stage⟩).op = .noOp := by
  rcases h with rfl | rfl
  · exact .inl rfl
  · exact .inr rfl

/-- Every edge of a walk belongs to one of its bytes: the even ones ask for it, and the odd ones
have it at the input. So the core is on the walk at every edge in between. -/
theorem Walks.core_eq {count : Nat → UInt16} (h : jump.Walks steps count) {n : Nat}
    (hn : n < 2 * steps) :
    jump.core (1 + n) = ⟨jump.address (n / 2 + 1), jump.ptr, .scan jump.direction (count (n / 2))⟩
      ∨ jump.core (1 + n)
        = ⟨jump.address (n / 2 + 1), jump.ptr, .scanDecode jump.direction (count (n / 2))⟩ := by
  have hbyte := h (n / 2) (by omega)
  rcases Nat.mod_two_eq_zero_or_one n with heven | hodd
  · have hfirst := hbyte.1
    rw [show 1 + 2 * (n / 2) = 1 + n by omega] at hfirst
    exact .inl hfirst
  · have hsecond := hbyte.2
    rw [show 2 + 2 * (n / 2) = 1 + n by omega] at hsecond
    exact .inr hsecond

/-- A jump whose depth comes back to zero before a zero byte leads behind the byte where it does.
The count cannot overflow on the way: every bracket that opens has to be closed again, which takes
half of the walk at least. -/
theorem landsAt_of_returns (hpos : 1 ≤ steps) (hle : steps ≤ 65535)
    (hbytes : ∀ i < steps, jump.byte i ≠ 0) (hreturns : jump.depth steps = 0)
    (hopen : ∀ i < steps, jump.depth i ≠ 0) :
    jump.LandsAt steps (jump.address steps + 1) := by
  have hdepth : ∀ i < steps, 1 ≤ jump.depth i := Direction.depth_pos jump.bracket hopen
  obtain ⟨k, rfl⟩ : ∃ k, steps = k + 1 := ⟨steps - 1, by omega⟩
  have hunder : jump.Underway k := by
    intro i hi
    have hhalf := depth_le_of_returns hreturns (Nat.le_succ_of_le hi)
    exact ⟨hbytes i (Nat.lt_succ_of_le hi), hdepth i (Nat.lt_succ_of_le hi), by omega⟩
  have hend : ¬jump.Underway (k + 1) := by
    intro hlast
    have hbelow := (hlast (k + 1) (Nat.le_refl _)).2.1
    omega
  have hwalks := walks_of_underway hunder
  constructor
  case lands =>
    cases endsAt_of_underway hunder hend with
    | partner _ _ last => exact last
    | zero empty _ =>
        -- A zero byte would leave the depth where it was, above zero.
        have hlast := jump.depth_succ k
        have hbefore := hdepth k (Nat.lt_succ_self k)
        rw [empty, Direction.weight_zero, hreturns] at hlast
        omega
    | overflow _ full _ =>
        have hhalf := depth_le_of_returns hreturns (Nat.le_succ k)
        omega
  case nesting =>
    intro n hn
    have hbefore := hdepth (n / 2) (by omega)
    have hhalf := depth_le_of_returns hreturns (show n / 2 ≤ k + 1 by omega)
    have hcount : (jump.count (n / 2)).toNat = (jump.depth (n / 2)).toNat :=
      UInt16.toNat_ofNat_of_lt' (by rw [UInt16.size]; omega)
    refine ⟨_, jump.count (n / 2), ?_, ?_, hwalks.core_eq hn⟩
    · rw [UInt16.le_iff_toNat_le, hcount, UInt16.toNat_one]
      omega
    · rw [UInt16.le_iff_toNat_le, hcount]
      show _ ≤ 32768
      omega
  case quiet =>
    intro n hn
    rcases hwalks.core_eq hn with hcore | hcore
    · rw [hcore]
      exact request_of_walks (.inl rfl)
    · rw [hcore]
      exact request_of_walks (.inr rfl)

/-- A byte of the walk that lies between two addresses without a zero byte between them. -/
theorem byte_ne_zero {left right : UInt16} (h : NonzeroBetween jump.program left right) {i : Nat}
    (hleft : left.toNat < (jump.address i).toNat) (hright : (jump.address i).toNat < right.toNat) :
    jump.byte i ≠ 0 :=
  h (jump.address i) (UInt16.lt_iff_toNat_lt.mpr hleft) (UInt16.lt_iff_toNat_lt.mpr hright)

/-- The jump at the `[` of a pair leads behind its `]`. The depth of the walk is the one that
`Matched` speaks of, so it comes back to zero at the `]` and not before. -/
theorem landsAt_right {right : UInt16} (hdirection : jump.direction = .forward)
    (h : Matched jump.program jump.start right)
    (hbetween : NonzeroBetween jump.program jump.start right) :
    jump.LandsAt (right.toNat - jump.start.toNat) (right + 1) := by
  have hlt : jump.start.toNat < right.toNat := h.lt
  have hright := right.toNat_lt
  have hend : jump.address (right.toNat - jump.start.toNat) = right := by
    rw [address, hdirection]
    exact Matched.address_right (UInt16.le_of_lt h.lt)
  have hdepth : ∀ i, jump.depth i = Direction.forward.depth jump.program jump.start i := by
    intro i
    rw [depth, hdirection]
  -- The first byte of the walk is the bracket itself, and the ones behind it lie between the two.
  have hbytes : ∀ i < right.toNat - jump.start.toNat, jump.byte i ≠ 0 := by
    intro i hi
    cases i with
    | zero => exact jump.byte_zero_ne
    | succ i =>
        have hbound : jump.start.toNat + (i + 1) < 65536 := by omega
        have haddress := Direction.toNat_address_forward hbound
        rw [← hdirection] at haddress
        exact byte_ne_zero hbetween (by rw [address]; omega) (by rw [address]; omega)
  have hlands := landsAt_of_returns (by omega) (by omega) hbytes (by rw [hdepth, h.returns])
    (fun i hi => by rw [hdepth]; exact h.first i hi)
  rwa [hend] at hlands

/-- The jump at the `]` of a pair leads behind its `[`, which is where a loop begins again. Here the
depth has to be read from the other end. -/
theorem landsAt_left {left : UInt16} (hdirection : jump.direction = .backward)
    (h : Matched jump.program left jump.start)
    (hbetween : NonzeroBetween jump.program left jump.start) :
    jump.LandsAt (jump.start.toNat - left.toNat) (left + 1) := by
  have hlt : left.toNat < jump.start.toNat := h.lt
  have hstart := jump.start.toNat_lt
  have hend : jump.address (jump.start.toNat - left.toNat) = left := by
    rw [address, hdirection]
    exact Matched.address_left (UInt16.le_of_lt h.lt)
  have hdepth : ∀ i, jump.depth i = Direction.backward.depth jump.program jump.start i := by
    intro i
    rw [depth, hdirection]
  -- The first byte of the walk is the bracket itself, and the ones behind it lie between the two.
  have hbytes : ∀ i < jump.start.toNat - left.toNat, jump.byte i ≠ 0 := by
    intro i hi
    cases i with
    | zero => exact jump.byte_zero_ne
    | succ i =>
        have hbound : i + 1 ≤ jump.start.toNat := by omega
        have haddress := Direction.toNat_address_backward hbound
        rw [← hdirection] at haddress
        exact byte_ne_zero hbetween (by rw [address]; omega) (by rw [address]; omega)
  -- `Matched` counts from the left. Seen from the right, the depth of a matched text is the same
  -- count from its other end (`depth_left`), which the text keeps above zero.
  have hopen : ∀ i < jump.start.toNat - left.toNat, jump.depth i ≠ 0 := by
    intro i hi
    rw [hdepth, h.depth_left hi]
    exact h.first _ (by omega)
  have hlands := landsAt_of_returns (by omega) (by omega) hbytes (by rw [hdepth, h.returns_left])
    hopen
  rwa [hend] at hlands

/-! ### Without a partner -/

/-- A jump that meets a zero byte before its depth comes back to zero stops the core, at the zero
byte or before it, if the count has overflowed. -/
theorem halts_of_zero (hzero : jump.byte steps = 0) (hopen : ∀ i < steps, jump.depth i ≠ 0) :
    jump.HaltsWithin steps := by
  have hend : ¬jump.Underway steps := fun hunder => (hunder steps (Nat.le_refl _)).1 hzero
  obtain ⟨k, hk, -, hends⟩ := exists_end hend
  have hlast : ∃ pc, jump.core (1 + 2 * (k + 1)) = ⟨pc, jump.ptr, .halted⟩ := by
    cases hends with
    | partner closes returns _ =>
        -- The walk cannot have ended at a partner in front of the zero byte, nor at that byte.
        rcases Nat.lt_or_ge (k + 1) steps with hlt | hge
        · exact absurd returns (hopen (k + 1) hlt)
        · obtain rfl : k + 1 = steps := Nat.le_antisymm hk hge
          rw [hzero] at closes
          cases hdirection : jump.direction <;> rw [hdirection] at closes <;>
            exact absurd closes (by decide)
    | zero _ last => exact ⟨_, last⟩
    | overflow _ _ last => exact ⟨_, last⟩
  obtain ⟨pc, hcore⟩ := hlast
  exact ⟨1 + 2 * (k + 1), by omega, by rw [hcore]; rfl⟩

/-- A jump at a `]` without a partner stops the core, if the last address is free. Its walk comes to
address zero with a bracket open, wraps to the last address, and reads a zero there. -/
theorem halts_of_unmatched (hdirection : jump.direction = .backward)
    (hsize : jump.program.size ≤ 65535)
    (hnone : ∀ left, ¬Matched jump.program left jump.start) :
    jump.HaltsWithin (jump.start.toNat + 1) := by
  -- One step to the left of address zero the walk is at the last address, which holds no byte.
  have hlast : jump.address (jump.start.toNat + 1) = 65535 := by
    rw [address, hdirection, Direction.address, UInt16.ofNat_add, UInt16.ofNat_toNat]
    grind
  have hfree : jump.program.bytes[(65535 : UInt16).toNat]? = none :=
    Array.getElem?_eq_none hsize
  have hzero : jump.byte (jump.start.toNat + 1) = 0 := by
    rw [byte, hlast, Rom.read, Array.getD_eq_getD_getElem?, hfree]
    rfl
  refine halts_of_zero hzero ?_
  intro i hi hreturns
  rw [depth, hdirection] at hreturns
  have hclose := jump.bracket
  rw [hdirection] at hclose
  obtain ⟨left, hmatched⟩ := Matched.exists_left hclose (Nat.le_of_lt_succ hi) hreturns
  exact hnone left hmatched

/-- A jump leads behind the partner of its bracket. From the `[` of a pair without a zero byte
between its brackets, it leads behind the `]`, and from the `]` behind the `[`. If the walk to the
right meets a zero byte before the depth is back at zero, the jump stops the core, and so does a
jump at a `]` that has no partner, if the last address is free. -/
theorem jump_finds_partner (jump : Jump) :
    (∀ right, jump.direction = .forward → Matched jump.program jump.start right →
        NonzeroBetween jump.program jump.start right →
        jump.LandsAt (right.toNat - jump.start.toNat) (right + 1))
      ∧ (∀ left, jump.direction = .backward → Matched jump.program left jump.start →
        NonzeroBetween jump.program left jump.start →
        jump.LandsAt (jump.start.toNat - left.toNat) (left + 1))
      ∧ (∀ steps, jump.direction = .forward → jump.byte steps = 0 →
        (∀ i < steps, jump.depth i ≠ 0) → jump.HaltsWithin steps)
      ∧ (jump.direction = .backward → jump.program.size ≤ 65535 →
        (∀ left, ¬Matched jump.program left jump.start) →
        jump.HaltsWithin (jump.start.toNat + 1)) := by
  refine ⟨?_, ?_, ?_, ?_⟩
  · intro right hdirection hmatched hbetween
    exact landsAt_right hdirection hmatched hbetween
  · intro left hdirection hmatched hbetween
    exact landsAt_left hdirection hmatched hbetween
  · intro steps _ hzero hopen
    exact halts_of_zero hzero hopen
  · intro hdirection hsize hnone
    exact halts_of_unmatched hdirection hsize hnone

/-- The program `[[+]]`. -/
def nestedPair : Rom :=
  ⟨#[91, 91, 43, 93, 93], by decide⟩

/-- The program `[+`. -/
def unclosed : Rom :=
  ⟨#[91, 43], by decide⟩

/-- The program `]`. -/
def unopened : Rom :=
  ⟨#[93], by decide⟩

/-- The outer brackets of `[[+]]` belong together. -/
theorem matched_nestedPair : Matched nestedPair 0 4 where
  opens := rfl
  closes := rfl
  lt := by decide
  returns := by decide +kernel
  first := by decide +kernel

/-- Between them there is no zero byte. -/
theorem nonzeroBetween_nestedPair : NonzeroBetween nestedPair 0 4 := by
  intro addr hleft hright
  rw [UInt16.lt_iff_toNat_lt] at hleft hright
  have haddr : addr.toNat = 1 ∨ addr.toNat = 2 ∨ addr.toNat = 3 := by
    simp only [UInt16.toNat_zero, UInt16.reduceToNat] at hleft hright
    omega
  rcases haddr with h | h | h <;> rw [Rom.read, h] <;> decide

/-- The jump at the `[` in front of `[[+]]`. -/
def skipNested : Jump :=
  skipping nestedPair rfl

/-- The jump at the `]` behind `[[+]]`. -/
def repeatNested : Jump :=
  ⟨nestedPair, fun _ => 0, .backward, 4, 0, 7, rfl, rfl⟩

/-- The jump in `[+`. -/
def skipUnclosed : Jump :=
  skipping unclosed rfl

/-- The jump in `]`. -/
def repeatUnopened : Jump :=
  ⟨unopened, fun _ => 0, .backward, 0, 0, 7, rfl, rfl⟩

/-- The jumps at the outer brackets of `[[+]]` lead behind each other. The jumps in `[+` and in `]`
stop the core. -/
theorem jump_finds_partner_nested :
    skipNested.LandsAt 4 5 ∧ repeatNested.LandsAt 4 1 ∧ skipUnclosed.HaltsWithin 2
      ∧ repeatUnopened.HaltsWithin 1 := by
  obtain ⟨hskip, -⟩ := jump_finds_partner skipNested
  obtain ⟨-, hrepeat, -⟩ := jump_finds_partner repeatNested
  obtain ⟨-, -, hunclosed, -⟩ := jump_finds_partner skipUnclosed
  obtain ⟨-, -, -, hunopened⟩ := jump_finds_partner repeatUnopened
  have hopen : ∀ i < 2, skipUnclosed.depth i ≠ 0 := by decide +kernel
  have hnone : ∀ left, ¬Matched unopened left 0 :=
    fun left hmatched => absurd hmatched.lt UInt16.not_lt_zero
  exact ⟨hskip 4 rfl matched_nestedPair nonzeroBetween_nestedPair,
    hrepeat 0 rfl matched_nestedPair nonzeroBetween_nestedPair,
    hunclosed 2 rfl rfl hopen, hunopened rfl (by decide) hnone⟩

end Jump

end TapeBench
