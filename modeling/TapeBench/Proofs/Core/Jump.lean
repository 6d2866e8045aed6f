import TapeBench.Proofs.Core.Depth
import TapeBench.Proofs.Core.Walk

/-!
# `TapeBench.Proofs.Core.Jump`: every walk to a bracket ends

A core that jumps at a bracket walks over the program until it finds the partner. Nothing in the
core bounds that walk: in a program without a zero byte that fills the address space, the program
counter comes round again and again. The walk ends all the same. If it does not end within one
revolution, no bracket closed the first one meanwhile, so the brackets of the whole address space
come to one open bracket at least. Each revolution adds that to the count, until the count overflows
and stops the core.

* `Jump`: a core in front of a jump, and the program that answers it.
* `Jump.Underway`: the walk has neither met a zero byte nor left the range of its count.
* `Jump.core_of_underway`: as long as it has not, the core follows `Direction.depth`.
* `Jump.EndsAt`, `Jump.exists_end`: how a walk can end.
* `walk_ends`: every walk ends, in one of three ways and within 2 ^ 33 edges.
-/

set_option autoImplicit false

namespace TapeBench

open Bus (Op)
open Memory (Rom)
open Addressed (scan_opener scan_closer_zero scan_closer_succ scan_other)

/-! ### A core that is answered by a program -/

/-- A core and what its input shows:

- `core`: the core;
- `valIn`: the value that the next edge finds. -/
structure Wired where
  core : Core
  valIn : UInt8

namespace Wired

/-- One rising edge. Behind it the input shows the program byte that the core asked for in front of
it. If the core asked for no program byte, the input shows `stray`. -/
def edge (program : Rom) (stray : UInt8) (wired : Wired) : Wired :=
  ⟨wired.core.edge wired.valIn,
    if wired.core.request.op = .readProgram then program.read wired.core.request.addr else stray⟩

/-- The state behind a number of rising edges. -/
def edges (program : Rom) (stray : Nat → UInt8) (wired : Wired) : Nat → Wired
  | 0 => wired
  | n + 1 => (edges program stray wired n).edge program (stray n)

/-- A walk takes two edges for a byte. The first one asks for it, and the second one has it at the
input and counts it, whatever the input showed at the first. -/
theorem edges_scan {program : Rom} {stray : Nat → UInt8} {wired : Wired} {n : Nat}
    {pc ptr depth : UInt16} {direction : Direction}
    (h : (wired.edges program stray n).core = ⟨pc, ptr, .scan direction depth⟩) :
    (wired.edges program stray (n + 1)).core = ⟨pc, ptr, .scanDecode direction depth⟩
      ∧ (wired.edges program stray (n + 2)).core
        = Core.scan ⟨pc, ptr, .scanDecode direction depth⟩ direction depth (program.read pc) := by
  have hfirst : wired.edges program stray (n + 1)
      = ⟨⟨pc, ptr, .scanDecode direction depth⟩, program.read pc⟩ := by
    rw [edges, edge, h]
    rfl
  refine ⟨by rw [hfirst], ?_⟩
  rw [edges, edge, hfirst]
  rfl

end Wired

namespace Direction

/-- What the cell at the bracket is wanted for. -/
def wanted : Direction → CellUse
  | forward => .loopOpen
  | backward => .loopClose

/-- The core jumps at the bracket: at a `[` if the cell is zero, at a `]` if it is not. -/
def jumps : Direction → UInt8 → Bool
  | forward, cell => cell = 0
  | backward, cell => cell ≠ 0

end Direction

/-- A core that is about to jump, and what is around it:

- `program`: the program that answers the core;
- `stray`: what the input shows behind an edge in front of which the core asked for no program byte;
- `direction`: where the core looks for the partner;
- `start`: address of the bracket;
- `ptr`: cell pointer of the core;
- `cell`: the cell on the input;
- `bracket`: there is such a bracket;
- `taken`: the cell makes the core jump. -/
structure Jump where
  program : Rom
  stray : Nat → UInt8
  direction : Direction
  start : UInt16
  ptr : UInt16
  cell : UInt8
  bracket : program.read start = direction.opener.byte
  taken : direction.jumps cell = true

namespace Jump

variable (jump : Jump)

/-- The core behind `n` edges, of which the first one consumes the cell and makes the jump. -/
def core (n : Nat) : Core :=
  (Wired.edges jump.program jump.stray
    ⟨⟨jump.start, jump.ptr, .apply jump.direction.wanted⟩, jump.cell⟩ n).core

/-- The address of the byte `k` steps from the bracket. -/
def address (k : Nat) : UInt16 :=
  jump.direction.address jump.start k

/-- The byte `k` steps from the bracket. -/
def byte (k : Nat) : UInt8 :=
  jump.program.read (jump.address k)

/-- The brackets that are open behind the byte `k` steps from the bracket. -/
def depth (k : Nat) : Int :=
  jump.direction.depth jump.program jump.start k

/-- The count with which the core walks on behind that byte. -/
def count (k : Nat) : UInt16 :=
  .ofNat (jump.depth k).toNat

/-- The walk goes on behind the byte `k` steps from the bracket: none of the bytes so far is zero,
and the brackets that were open never left the range of the count. -/
def Underway (k : Nat) : Prop :=
  ∀ i ≤ k, jump.byte i ≠ 0 ∧ 1 ≤ jump.depth i ∧ jump.depth i ≤ 65535

/-- The walk goes over the bytes 1 to `steps`, two edges for each of them, and the core looks at the
byte `k + 1` with the count `count k`. -/
def Walks (steps : Nat) (count : Nat → UInt16) : Prop :=
  ∀ k < steps,
    jump.core (1 + 2 * k)
        = ⟨jump.address (k + 1), jump.ptr, .scan jump.direction (count k)⟩
      ∧ jump.core (2 + 2 * k)
        = ⟨jump.address (k + 1), jump.ptr, .scanDecode jump.direction (count k)⟩

/-! ### The core follows the depth -/

/-- Behind the bracket itself one bracket is open. -/
@[simp] theorem depth_zero : jump.depth 0 = 1 := by
  rw [depth, Direction.depth_zero, jump.bracket, Direction.weight_opener]

/-- Each further byte opens a bracket, closes one, or does neither. -/
theorem depth_succ (k : Nat) :
    jump.depth (k + 1) = jump.depth k + jump.direction.weight (jump.byte (k + 1)) :=
  Direction.depth_succ ..

/-- The bracket is not a zero byte, so the walk does not end before it begins. -/
theorem byte_zero_ne : jump.byte 0 ≠ 0 := by
  rw [byte, address, Direction.address_zero, jump.bracket]
  cases jump.direction <;> decide

variable {jump}

/-- The walk goes on behind the bracket. -/
theorem underway_zero : jump.Underway 0 := by
  intro i hi
  obtain rfl := Nat.le_zero.mp hi
  exact ⟨jump.byte_zero_ne, by rw [depth_zero], by rw [depth_zero]; decide⟩

/-- A walk that goes on behind a byte went on behind every byte before it. -/
theorem Underway.mono {k i : Nat} (h : jump.Underway k) (hi : i ≤ k) : jump.Underway i :=
  fun j hj => h j (hj.trans hi)

/-- The largest depth that the count can hold. -/
theorem count_of_full {k : Nat} (h : jump.depth k = 65535) : jump.count k = 65535 := by
  rw [count, h]
  rfl

/-- A byte that leaves the count in its range lets the core walk on. The range is stated of the
whole numbers `depth` and `next`, of which the core has the 16 bits. -/
theorem scan_of_depth {direction : Direction} {pc ptr : UInt16} {stage : Stage} {byte : UInt8}
    {depth next : Int} (hbyte : byte ≠ 0) (hdepth : 1 ≤ depth ∧ depth ≤ 65535)
    (hnext : next = depth + direction.weight byte) (hpos : 1 ≤ next) (hle : next ≤ 65535) :
    Core.scan ⟨pc, ptr, stage⟩ direction (.ofNat depth.toNat) byte
      = ⟨direction.advance pc, ptr, .scan direction (.ofNat next.toNat)⟩ := by
  -- A depth of at least one, as a natural number: the bracket in search and `inner` others.
  obtain ⟨inner, rfl⟩ : ∃ inner : Nat, depth = (inner + 1 : Nat) :=
    ⟨(depth - 1).toNat, by omega⟩
  rw [Int.toNat_natCast]
  rcases direction.weight_cases byte with ⟨hopen, hweight⟩ | ⟨hopen, hclose, hweight⟩
    | ⟨hopen, hclose, hweight⟩
  · have hcount : next.toNat = inner + 2 := by omega
    rw [hcount]
    exact scan_opener hbyte hopen (by omega)
  · obtain ⟨rest, rfl⟩ : ∃ rest, inner = rest + 1 := ⟨inner - 1, by omega⟩
    have hcount : next.toNat = rest + 1 := by omega
    have hbound : rest + 2 ≤ 65535 := by omega
    rw [hcount]
    exact scan_closer_succ hbyte hopen hclose hbound
  · have hcount : next.toNat = inner + 1 := by omega
    rw [hcount]
    exact scan_other hbyte hopen hclose (by omega)

/-- The first edge makes the jump: the core leaves the bracket for the byte beside it, with a depth
of one for the bracket itself. -/
theorem core_one : jump.core 1 = ⟨jump.address 1, jump.ptr, .scan jump.direction 1⟩ := by
  obtain ⟨program, stray, direction, start, ptr, cell, bracket, taken⟩ := jump
  cases direction with
  | forward =>
      have hcell : cell = 0 := of_decide_eq_true taken
      show Core.apply _ .loopOpen cell = _
      rw [Core.apply, if_pos hcell]
      rfl
  | backward =>
      have hcell : cell ≠ 0 := of_decide_eq_true taken
      show Core.apply _ .loopClose cell = _
      rw [Core.apply, if_neg hcell]
      rfl

/-- As long as the walk is under way, the core follows the depth. It has passed `k` bytes behind its
first edge then, and its count is the depth in 16 bits. -/
theorem core_of_underway {k : Nat} (h : jump.Underway k) :
    jump.core (1 + 2 * k)
      = ⟨jump.address (k + 1), jump.ptr, .scan jump.direction (jump.count k)⟩ := by
  -- Induction on the bytes that were passed. `Underway` keeps the count in its range on the way.
  induction k with
  | zero =>
      rw [count, depth_zero]
      exact core_one
  | succ k ih =>
      have hbyte := (h (k + 1) (Nat.le_refl _)).1
      have hpos := (h (k + 1) (Nat.le_refl _)).2.1
      have hle := (h (k + 1) (Nat.le_refl _)).2.2
      have hdepth := (h k (Nat.le_succ k)).2
      have hnext := (Wired.edges_scan (ih (h.mono (Nat.le_succ k)))).2
      rw [show 1 + 2 * (k + 1) = 1 + 2 * k + 2 by omega, core, hnext]
      rw [show jump.address (k + 1 + 1) = jump.direction.advance (jump.address (k + 1)) from
        Direction.address_succ ..]
      exact scan_of_depth hbyte hdepth (jump.depth_succ k) hpos hle

/-- A walk that is under way behind all its bytes but the last one. -/
theorem walks_of_underway {k : Nat} (h : jump.Underway k) :
    jump.Walks (k + 1) jump.count := by
  intro i hi
  have hscan := core_of_underway (h.mono (Nat.le_of_lt_succ hi))
  have hdecode := (Wired.edges_scan hscan).1
  rw [show 1 + 2 * i + 1 = 2 + 2 * i by omega] at hdecode
  exact ⟨hscan, hdecode⟩

/-- What the core makes of the byte that the walk has come to. -/
theorem core_behind {k : Nat} (h : jump.Underway k) :
    jump.core (1 + 2 * (k + 1))
      = Core.scan ⟨jump.address (k + 1), jump.ptr, .scanDecode jump.direction (jump.count k)⟩
          jump.direction (jump.count k) (jump.byte (k + 1)) := by
  have hnext := (Wired.edges_scan (core_of_underway h)).2
  rw [show 1 + 2 * (k + 1) = 1 + 2 * k + 2 by omega]
  exact hnext

/-! ### The end of a walk -/

variable (jump) in
/-- How a walk ends at its last byte:

- `partner`: at the partner, behind which the core goes on;
- `zero`: at a zero byte, which stops the core;
- `overflow`: at a bracket that the count has no room for, which stops the core. -/
inductive EndsAt (k : Nat) : Prop
  | partner (closes : jump.byte (k + 1) = jump.direction.closer.byte)
      (returns : jump.depth (k + 1) = 0)
      (last : jump.core (1 + 2 * (k + 1)) = ⟨jump.address (k + 1) + 1, jump.ptr, .fetch⟩)
  | zero (empty : jump.byte (k + 1) = 0)
      (last : jump.core (1 + 2 * (k + 1)) = ⟨jump.address (k + 1), jump.ptr, .halted⟩)
  | overflow (opens : jump.byte (k + 1) = jump.direction.opener.byte) (full : jump.depth k = 65535)
      (last : jump.core (1 + 2 * (k + 1)) = ⟨jump.address (k + 1), jump.ptr, .halted⟩)

/-- A walk that is under way in front of a byte and not behind it ends there, in one of three ways:
the byte is zero, it closes the last bracket, or it opens one too many. -/
theorem endsAt_of_underway {k : Nat} (h : jump.Underway k) (hend : ¬jump.Underway (k + 1)) :
    jump.EndsAt k := by
  have hcore := core_behind h
  have hdepth := jump.depth_succ k
  have hpos := (h k (Nat.le_refl k)).2.1
  have hle := (h k (Nat.le_refl k)).2.2
  by_cases hbyte : jump.byte (k + 1) = 0
  · rw [Core.scan, if_pos hbyte] at hcore
    exact .zero hbyte hcore
  · -- Otherwise the depth has left the range of the count, at its lower or at its upper end.
    have hrange : jump.depth (k + 1) < 1 ∨ 65535 < jump.depth (k + 1) := by
      by_contra hinside
      refine hend fun i hi => ?_
      rcases Nat.lt_or_ge i (k + 1) with hlt | hge
      · exact h i (Nat.le_of_lt_succ hlt)
      · obtain rfl : i = k + 1 := Nat.le_antisymm hi hge
        exact ⟨hbyte, by omega, by omega⟩
    rcases jump.direction.weight_cases (jump.byte (k + 1)) with ⟨hopen, hweight⟩
      | ⟨hopen, hclose, hweight⟩ | ⟨hopen, hclose, hweight⟩
    · have hfull : jump.depth k = 65535 := by omega
      rw [Core.scan, if_neg hbyte, if_pos hopen, if_pos (count_of_full hfull)] at hcore
      exact .overflow hopen hfull hcore
    · have hone : jump.depth k = 1 := by omega
      rw [count, hone] at hcore
      exact .partner hclose (by omega) (hcore.trans (scan_closer_zero hbyte hopen hclose))
    · omega

/-- A walk that is not under way any more has ended before. -/
theorem exists_end {n : Nat} (h : ¬jump.Underway n) :
    ∃ k < n, jump.Underway k ∧ jump.EndsAt k := by
  induction n with
  | zero => exact absurd underway_zero h
  | succ n ih =>
      by_cases hbefore : jump.Underway n
      · exact ⟨n, Nat.lt_succ_self n, hbefore, endsAt_of_underway hbefore h⟩
      · obtain ⟨k, hk, hunder, hends⟩ := ih hbefore
        exact ⟨k, Nat.lt_succ_of_lt hk, hunder, hends⟩

/-! ### Revolutions -/

/-- A walk that is under way behind one revolution but for its last byte adds to its count with
every revolution. -/
theorem depth_lt_revolution (h : jump.Underway (addressSpace - 1)) (k : Nat) :
    jump.depth k < jump.depth (k + addressSpace) := by
  have hgain := (h (addressSpace - 1) (Nat.le_refl _)).2.1
  have hround : jump.depth (addressSpace + k) = jump.depth (addressSpace - 1) + jump.depth k :=
    Direction.depth_revolution ..
  rw [Nat.add_comm k]
  omega

/-- In its range, the count is larger where the depth is. -/
theorem count_lt {depth later : Int} (hpos : 1 ≤ depth) (hle : later ≤ 65535)
    (h : depth < later) : UInt16.ofNat depth.toNat < UInt16.ofNat later.toNat := by
  have hbefore : (UInt16.ofNat depth.toNat).toNat = depth.toNat :=
    UInt16.toNat_ofNat_of_lt' (by rw [UInt16.size]; omega)
  have hafter : (UInt16.ofNat later.toNat).toNat = later.toNat :=
    UInt16.toNat_ofNat_of_lt' (by rw [UInt16.size]; omega)
  rw [UInt16.lt_iff_toNat_lt, hbefore, hafter]
  omega

/-- The same bytes come round with every revolution. -/
theorem byte_revolution (k : Nat) : jump.byte (k + addressSpace) = jump.byte k := by
  rw [byte, address, Nat.add_comm, Direction.address_revolution]
  rfl

/-- Behind some revolutions, as many brackets are open at least. -/
theorem le_depth_revolutions (h : jump.Underway (addressSpace - 1)) (laps : Nat) :
    (laps : Int) + 1 ≤ jump.depth (laps * addressSpace) := by
  induction laps with
  | zero => rw [Nat.zero_mul, depth_zero]; rfl
  | succ laps ih =>
      have hlap := depth_lt_revolution h (laps * addressSpace)
      rw [Nat.succ_mul]
      push_cast
      omega

variable (jump) in
/-- No walk is under way for as many revolutions as the count has room for. -/
theorem not_underway : ¬jump.Underway (65535 * addressSpace) := by
  intro h
  have hlaps := le_depth_revolutions (h.mono (by decide)) 65535
  have hle := (h _ (Nat.le_refl _)).2.2
  omega

/-- A walk that ends behind its first revolution ends with an overflow. A zero byte would have
stopped it one revolution earlier, and the depth has grown since then, so it cannot be back at zero.
-/
theorem overflow_of_le {k : Nat} (h : jump.Underway k) (hk : addressSpace ≤ k + 1)
    (hends : jump.EndsAt k) :
    jump.byte (k + 1) = jump.direction.opener.byte ∧ jump.depth k = 65535
      ∧ jump.core (1 + 2 * (k + 1)) = ⟨jump.address (k + 1), jump.ptr, .halted⟩ := by
  obtain ⟨i, hi⟩ : ∃ i, k + 1 = i + addressSpace := ⟨k + 1 - addressSpace, by omega⟩
  -- One revolution before, the walk was at the same byte, and under way.
  have hsize : addressSpace = 65536 := rfl
  have hunder := h i (by omega)
  cases hends with
  | partner _ returns _ =>
      have hgrowth := depth_lt_revolution (h.mono (by omega)) i
      rw [← hi, returns] at hgrowth
      omega
  | zero empty _ =>
      rw [hi, byte_revolution] at empty
      exact absurd empty hunder.1
  | overflow opens full last => exact ⟨opens, full, last⟩

/-- Every walk ends. The core walks over `steps` bytes, which takes at most 2 ^ 33 edges with the
one that makes the jump, and is in a stage of the walk in between. If there is an end within one
revolution, the core goes on behind the partner, or stops at a zero byte. Any other walk adds to its
count with every revolution, until the count overflows and stops the core. -/
theorem walk_ends (jump : Jump) :
    ∃ steps count, 1 ≤ steps ∧ 1 + 2 * steps ≤ 2 ^ 33 ∧ jump.Walks steps count
      ∧ (steps < addressSpace ∧ jump.byte steps = jump.direction.closer.byte
          ∧ jump.depth steps = 0
          ∧ jump.core (1 + 2 * steps) = ⟨jump.address steps + 1, jump.ptr, .fetch⟩
        ∨ steps < addressSpace ∧ jump.byte steps = 0
          ∧ jump.core (1 + 2 * steps) = ⟨jump.address steps, jump.ptr, .halted⟩
        ∨ (∀ k, k + addressSpace < steps → count k < count (k + addressSpace))
          ∧ jump.byte steps = jump.direction.opener.byte ∧ count (steps - 1) = 65535
          ∧ jump.core (1 + 2 * steps) = ⟨jump.address steps, jump.ptr, .halted⟩) := by
  obtain ⟨k, hk, hunder, hends⟩ := exists_end jump.not_underway
  have hsize : addressSpace = 65536 := rfl
  refine ⟨k + 1, jump.count, by omega, by omega, walks_of_underway hunder, ?_⟩
  -- Within one revolution any of the three ends may come, and behind it only an overflow.
  by_cases hlap : k + 1 < addressSpace
  · cases hends with
    | partner closes returns last => exact .inl ⟨hlap, closes, returns, last⟩
    | zero empty last => exact .inr (.inl ⟨hlap, empty, last⟩)
    | overflow opens full last =>
        exact .inr (.inr ⟨fun i hi => absurd hi (by omega), opens, count_of_full full, last⟩)
  · obtain ⟨opens, full, last⟩ := overflow_of_le hunder (Nat.not_lt.mp hlap) hends
    refine .inr (.inr ⟨?_, opens, count_of_full full, last⟩)
    intro i hi
    have hgrowth := depth_lt_revolution (hunder.mono (by omega)) i
    exact count_lt (hunder i (by omega)).2.1 (hunder (i + addressSpace) (by omega)).2.2 hgrowth

/-- The jump at a `[` at address zero, over a cell that is zero. -/
def skipping (program : Rom) (opens : program.read 0 = 91) : Jump where
  program := program
  stray := fun _ => 0
  direction := .forward
  start := 0
  ptr := 0
  cell := 0
  bracket := opens
  taken := rfl

/-- A `[` in front of comments that fill the address space. -/
def lonely : Rom where
  bytes := #[91] ++ Array.replicate 65535 43
  size_le := by simp [addressSpace]

/-- No byte of that program is zero or a `]`. -/
theorem read_lonely (addr : UInt16) : lonely.read addr = 91 ∨ lonely.read addr = 43 := by
  have haddr := addr.toNat_lt
  simp only [Rom.read, lonely, Array.getD_eq_getD_getElem?, Array.getElem?_append,
    Array.getElem?_replicate]
  split
  · left
    rw [show addr.toNat = 0 by simp_all]
    rfl
  · right
    rw [if_pos (by simp; omega)]
    rfl

/-- The jump at the `[` of that program. -/
def endless : Jump :=
  skipping lonely (by simp [Rom.read, lonely])

/-- The walk over a program that holds neither a partner nor a zero byte is stopped by the count. -/
theorem walk_ends_endless :
    ∃ steps, 1 + 2 * steps ≤ 2 ^ 33
      ∧ endless.core (1 + 2 * steps) = ⟨endless.address steps, 0, .halted⟩ := by
  obtain ⟨steps, count, -, hsteps, -, hends⟩ := walk_ends endless
  have hbyte := read_lonely (endless.address steps)
  rcases hends with ⟨-, hclose, -⟩ | ⟨-, hzero, -⟩ | ⟨-, -, -, hlast⟩
  · have hclose : lonely.read (endless.address steps) = 93 := hclose
    rw [hclose] at hbyte
    exact absurd hbyte (by decide)
  · have hzero : lonely.read (endless.address steps) = 0 := hzero
    rw [hzero] at hbyte
    exact absurd hbyte (by decide)
  · exact ⟨steps, hsteps, hlast⟩

end Jump

end TapeBench
