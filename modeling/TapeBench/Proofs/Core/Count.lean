import TapeBench.Proofs.Core.Jump

/-!
# `TapeBench.Proofs.Core.Count`: the count of a walk is exact

On a walk the core counts the open brackets in sixteen bits. It looks for room before it adds one,
but takes one off without a look. That is safe in front of any environment, also of one whose bytes
come from no program: a walk sets out with one open bracket, and is over as soon as none is open. So
there is a bracket to take off at every closing one, and the count is what a whole number would be.

* `Core.Event`, `Core.behind`: edges and resets, and a new core behind some of them.
* `Core.Walking`: the core is on a walk. `walking_edge` lists the ways onto a walk and along it.
* `Core.depth_ne_zero`: the invariant. On a walk, a bracket is open.
* `Core.CountsExactly`: an edge of a walk does what it would do with a whole number.
* `Core.count_exact`: behind all events it does. A walk keeps its direction and the cell pointer,
  and a stopped core is at rest until a reset.
-/

set_option autoImplicit false

namespace TapeBench

open Addressed (scan_closer_zero)
open Jump (scan_of_depth)

/-- Direction and open brackets of the walk that a stage belongs to, if it belongs to one. -/
def Stage.walk? : Stage → Option (Direction × UInt16)
  | .scan direction depth | .scanDecode direction depth => some (direction, depth)
  | .fetch | .decode | .loadCell _ | .apply _ | .store _ | .emit _ | .readInput | .acceptInput
  | .halted => none

/-- The brackets that are open behind one more byte of a walk, as a whole number. -/
def Direction.opened (direction : Direction) (depth : UInt16) (byte : UInt8) : Int :=
  depth.toNat + direction.weight byte

namespace Core

/-- What can happen to a core:

- `clock`: a rising edge, at which its input shows `valIn`;
- `reset`: it is put back into its first state. -/
inductive Event where
  | clock (valIn : UInt8)
  | reset
  deriving DecidableEq

/-- The core behind an event. -/
def after (core : Core) : Event → Core
  | .clock valIn => core.edge valIn
  | .reset => {}

/-- A new core behind some events. -/
def behind (events : List Event) : Core :=
  events.foldl after {}

/-- The core is on a walk, with `depth` brackets open. -/
def Walking (core : Core) (direction : Direction) (depth : UInt16) : Prop :=
  core.stage.walk? = some (direction, depth)

/-- A look at the state of the core tells whether it walks in a given direction at a given depth. -/
instance (core : Core) (direction : Direction) (depth : UInt16) :
    Decidable (core.Walking direction depth) :=
  inferInstanceAs (Decidable (_ = _))

/-- The core consumes a byte under a walk as it would with a whole number for its count:

- `lowers`: at a closing bracket, there is one to take off;
- `nonneg`: behind the byte, the number of open brackets is not negative;
- `leaves`: if none is open, the core goes on with the next instruction;
- `stops`: at a zero byte it stops, and if more are open than the count has room for;
- `onward`: otherwise it walks on, and counts what is open. -/
structure CountsExactly (core : Core) (direction : Direction) (depth : UInt16) (byte : UInt8) :
    Prop where
  lowers : byte = direction.closer.byte → (depth - 1).toNat + 1 = depth.toNat
  nonneg : 0 ≤ direction.opened depth byte
  leaves : direction.opened depth byte = 0 → core.edge byte = ⟨core.pc + 1, core.ptr, .fetch⟩
  stops : byte = 0 ∨ 65535 < direction.opened depth byte →
    core.edge byte = ⟨core.pc, core.ptr, .halted⟩
  onward : byte ≠ 0 → 1 ≤ direction.opened depth byte → direction.opened depth byte ≤ 65535 →
    ∃ next : UInt16, next.toNat = direction.opened depth byte
      ∧ core.edge byte = ⟨direction.advance core.pc, core.ptr, .scan direction next⟩

/-! ### Onto a walk and along it -/

section Walking

variable {core : Core} {direction toward : Direction} {depth next : UInt16} {byte valIn : UInt8}

/-- A walk goes on with the count that it is given, if that is not zero. -/
theorem walking_walk (h : (core.walk direction depth).Walking toward next) :
    toward = direction ∧ next = depth ∧ depth ≠ 0 := by
  rw [walk] at h
  split at h
  case isTrue => cases h
  case isFalse hdepth =>
    cases h
    exact ⟨rfl, rfl, hdepth⟩

/-- A walk that goes on behind a byte keeps its direction, and has a bracket open. At a depth of one
a closer ends the walk, so none goes on with a depth of zero. -/
theorem walking_scan (h : (core.scan direction depth byte).Walking toward next) :
    toward = direction ∧ next ≠ 0 := by
  have hwalk : ∃ count, (core.walk direction count).Walking toward next := by
    rw [scan] at h
    split at h
    · cases h
    · split at h
      · split at h
        · cases h
        · exact ⟨_, h⟩
      · split at h <;> exact ⟨_, h⟩
  obtain ⟨count, hcount⟩ := hwalk
  obtain ⟨rfl, rfl, hpos⟩ := walking_walk hcount
  exact ⟨rfl, hpos⟩

/-- A walk sets out with one open bracket, in the direction of the partner. -/
theorem walking_apply {wanted : CellUse} (h : (core.apply wanted byte).Walking toward next) :
    wanted = toward.wanted ∧ next = 1 := by
  cases wanted with
  | increment | decrement | emit => cases h
  | loopOpen | loopClose =>
      rw [apply] at h
      split at h <;> cases h
      exact ⟨rfl, rfl⟩

/-- No instruction sets out on a walk before it has loaded the cell. -/
theorem not_walking_decode : ¬(core.decode byte).Walking toward next := by
  intro h
  rw [decode] at h
  repeat' split at h
  all_goals cases h

/-- A core is on a walk behind an edge in three ways: it has set out with one open bracket, it has
asked for a byte, or it has consumed a byte and has brackets left. -/
theorem walking_edge (h : (core.edge valIn).Walking direction next) :
    core.stage = .apply direction.wanted ∧ next = 1
      ∨ core.stage = .scan direction next
      ∨ (∃ depth, core.stage = .scanDecode direction depth) ∧ next ≠ 0 := by
  obtain ⟨pc, ptr, stage⟩ := core
  cases stage with
  | fetch | loadCell | store | emit | readInput | acceptInput | halted => cases h
  | decode => exact absurd h not_walking_decode
  | apply wanted =>
      obtain ⟨rfl, rfl⟩ := walking_apply h
      exact .inl ⟨rfl, rfl⟩
  | scan toward depth =>
      cases h
      exact .inr (.inl rfl)
  | scanDecode toward depth =>
      obtain ⟨rfl, hpos⟩ := walking_scan h
      exact .inr (.inr ⟨⟨depth, rfl⟩, hpos⟩)

/-- An edge of a walk leaves the cell pointer where it is, also the edge that ends the walk. -/
theorem ptr_edge (h : core.Walking direction depth) : (core.edge valIn).ptr = core.ptr := by
  obtain ⟨pc, ptr, stage⟩ := core
  cases stage with
  | fetch | decode | loadCell | apply | store | emit | readInput | acceptInput | halted => cases h
  | scan toward depth => rfl
  | scanDecode toward depth =>
      simp only [edge, scan, walk, nextInstruction]
      repeat' split
      all_goals rfl

/-- A walk keeps its direction as long as it lasts. -/
theorem direction_edge (h : core.Walking direction depth)
    (hnext : (core.edge valIn).Walking toward next) : toward = direction := by
  rw [Walking] at h
  rcases walking_edge hnext with ⟨hstage, -⟩ | hstage | ⟨⟨count, hstage⟩, -⟩
  all_goals
    rw [hstage] at h
    cases h
  all_goals rfl

end Walking

/-! ### A bracket is open -/

section Open

variable {core : Core} {direction : Direction} {depth : UInt16}

/-- Later events lead on from the state that the earlier ones have left. -/
theorem behind_append (events later : List Event) :
    behind (events ++ later) = later.foldl after (behind events) :=
  List.foldl_append

/-- In particular, one event more leads one step on. The invariants below are carried over this
step. -/
theorem behind_concat (events : List Event) (event : Event) :
    behind (events ++ [event]) = (behind events).after event :=
  behind_append events [event]

/-- On a walk a bracket is open, whatever happened to the core before. A jump begins with a depth of
one, and the bytes of a walk keep it from zero (`walking_scan`). -/
theorem depth_ne_zero {events : List Event} (h : (behind events).Walking direction depth) :
    depth ≠ 0 := by
  -- By induction on what happened. The bracket that was open in front of an edge is needed where
  -- the core has asked for a byte: its count stays as it is.
  induction events using List.reverseRecOn generalizing depth with
  | nil => cases h
  | append_singleton events event ih =>
      rw [behind_concat] at h
      cases event with
      | reset => cases h
      | clock valIn =>
          rcases walking_edge h with ⟨-, rfl⟩ | hstage | ⟨-, hpos⟩
          · decide
          · exact ih (by rw [Walking, hstage]; rfl)
          · exact hpos

end Open

/-! ### Whole numbers -/

section Exact

variable {core : Core} {direction : Direction} {depth : UInt16} {byte : UInt8}

/-- A count that is not zero is at least one. -/
theorem one_le_toNat (h : depth ≠ 0) : 1 ≤ depth.toNat :=
  UInt16.lt_iff_toNat_lt.mp (UInt16.pos_iff_ne_zero.mpr h)

/-- A zero byte stops the core, and so does a bracket that the count has no room for. The second
case is a check on the largest depth, in front of the addition that would wrap. -/
theorem scan_stops (h : byte = 0 ∨ 65535 < direction.opened depth byte) :
    core.scan direction depth byte = ⟨core.pc, core.ptr, .halted⟩ := by
  by_cases hzero : byte = 0
  · rw [scan, if_pos hzero]
  · have hmany := h.resolve_left hzero
    have hlt := depth.toNat_lt
    rcases direction.weight_cases byte with ⟨hopen, hweight⟩ | ⟨-, -, hweight⟩ | ⟨-, -, hweight⟩
    all_goals rw [Direction.opened, hweight] at hmany
    · have hfull : depth = 65535 := by
        rw [← UInt16.toNat_inj]
        show depth.toNat = 65535
        omega
      rw [scan, if_neg hzero, if_pos hopen, if_pos hfull]
    · omega
    · omega

/-- Behind the bracket that closes the last one, the core goes on with the next instruction. That is
the byte to the right of the bracket, in a walk to the left as well. -/
theorem scan_leaves (hdepth : depth ≠ 0) (h : direction.opened depth byte = 0) :
    core.scan direction depth byte = ⟨core.pc + 1, core.ptr, .fetch⟩ := by
  have hpos := one_le_toNat hdepth
  -- Only a closer can bring the number of open brackets down to zero, and only from one.
  rcases direction.weight_cases byte with ⟨-, hweight⟩ | ⟨hopen, hclose, hweight⟩ | ⟨-, -, hweight⟩
  all_goals rw [Direction.opened, hweight] at h
  · omega
  · have hbyte : byte ≠ 0 := by
      rw [hclose]
      cases direction <;> decide
    have hone : depth = .ofNat 1 := by
      rw [← UInt16.toNat_inj]
      show depth.toNat = 1
      omega
    rw [hone]
    exact scan_closer_zero hbyte hopen hclose
  · omega

/-- In between, the core walks on, with the number of open brackets for its count. Of that number,
as of any from 1 to 65535, the 16 bits lose nothing. -/
theorem scan_onward (hdepth : depth ≠ 0) (hbyte : byte ≠ 0)
    (hpos : 1 ≤ direction.opened depth byte) (hle : direction.opened depth byte ≤ 65535) :
    core.scan direction depth byte = ⟨direction.advance core.pc, core.ptr,
      .scan direction (.ofNat (direction.opened depth byte).toNat)⟩ := by
  have hrange : 1 ≤ (depth.toNat : Int) ∧ (depth.toNat : Int) ≤ 65535 := by
    have hone := one_le_toNat hdepth
    have hlt := depth.toNat_lt
    omega
  have hwalk : core.scan direction (.ofNat (depth.toNat : Int).toNat) byte = _ :=
    scan_of_depth hbyte hrange rfl hpos hle
  rwa [Int.toNat_natCast, UInt16.ofNat_toNat] at hwalk

/-- With a bracket open, an edge of a walk does what it would do with a whole number. The count is
neither lowered below zero nor raised beyond its width. In front of both the core leaves the walk.
-/
theorem countsExactly_of_ne_zero (hstage : core.stage = .scanDecode direction depth)
    (hdepth : depth ≠ 0) (byte : UInt8) : core.CountsExactly direction depth byte := by
  have hedge : core.edge byte = core.scan direction depth byte := by
    rw [edge, hstage]
  -- A depth of zero would wrap when it is lowered. `hdepth` rules it out.
  have hone := one_le_toNat hdepth
  constructor
  case lowers =>
    intro _
    rw [UInt16.toNat_sub_of_le depth 1 hone]
    exact Nat.sub_add_cancel hone
  case nonneg =>
    have hweight := direction.weight_cases byte
    rw [Direction.opened]
    omega
  case leaves =>
    intro hnone
    rw [hedge, scan_leaves hdepth hnone]
  case stops =>
    intro hstop
    rw [hedge, scan_stops hstop]
  case onward =>
    intro hbyte hpos hle
    refine ⟨.ofNat (direction.opened depth byte).toNat, ?_, ?_⟩
    · rw [UInt16.toNat_ofNat_of_lt' (by rw [UInt16.size]; omega)]
      omega
    · rw [hedge, scan_onward hdepth hbyte hpos hle]

end Exact

/-! ### A stopped core -/

/-- A stopped core asks for nothing. -/
theorem request_of_halted {core : Core} (h : core.halted = true) : core.request = .idle := by
  obtain ⟨pc, ptr, stage⟩ := core
  cases stage with
  | halted => rfl
  | fetch | decode | loadCell | apply | store | emit | readInput | acceptInput | scan
  | scanDecode => cases h

/-- A stopped core stays as it is until a reset, whatever edges it is given and whatever its input
shows. -/
theorem foldl_after_of_halted {core : Core} (h : core.halted = true) {events : List Event}
    (hreset : .reset ∉ events) : events.foldl after core = core := by
  induction events with
  | nil => rfl
  | cons event rest ih =>
      obtain ⟨hfirst, hrest⟩ := not_or.mp (List.mem_cons.not.mp hreset)
      cases event with
      | reset => exact absurd rfl hfirst
      | clock valIn =>
          rw [List.foldl_cons, after, edge_of_halted h]
          exact ih hrest

/-! ### All that may happen -/

/-- As long as a walk lasts, it keeps its direction and the cell pointer. That it lasts is asked of
every prefix of the later events, as a core may leave a walk and be on another one later. -/
theorem walking_kept {events later : List Event} {direction : Direction} {depth : UInt16}
    (h : (behind events).Walking direction depth)
    (hlasts : ∀ k ≤ later.length, (behind (events ++ later.take k)).stage.walk?.isSome = true) :
    (∃ now, (behind (events ++ later)).Walking direction now)
      ∧ (behind (events ++ later)).ptr = (behind events).ptr := by
  induction later using List.reverseRecOn with
  | nil =>
      rw [List.append_nil]
      exact ⟨⟨depth, h⟩, rfl⟩
  -- From the end: `ih` brings the walk up to the last event, and that event keeps it or breaks it.
  | append_singleton later event ih =>
      have hlength : (later ++ [event]).length = later.length + 1 := List.length_append
      rw [hlength] at hlasts
      obtain ⟨⟨now, hnow⟩, hptr⟩ := ih fun k hk => by
        rw [← List.take_append_of_le_length hk]
        exact hlasts k (Nat.le_succ_of_le hk)
      have hlast := hlasts (later.length + 1) (Nat.le_refl _)
      rw [List.take_of_length_le hlength.le] at hlast
      obtain ⟨⟨toward, count⟩, hwalk⟩ := Option.isSome_iff_exists.mp hlast
      rw [← List.append_assoc, behind_concat] at hwalk ⊢
      -- A reset would leave the walk, against `hlasts`. So the last event is an edge of the clock.
      cases event with
      | reset => cases hwalk
      | clock valIn =>
          obtain rfl : toward = direction := direction_edge hnow hwalk
          exact ⟨⟨count, hwalk⟩, (ptr_edge hnow).trans hptr⟩

/-- Behind all edges and resets that may happen to a new core, whatever its input shows:

- on a walk, between 1 and 65535 brackets are open;
- where it consumes a byte under a walk, it counts exactly;
- a walk keeps its direction and the cell pointer as long as it lasts;
- a stopped core asks for nothing, and stays as it is until a reset. -/
theorem count_exact (events : List Event) :
    (∀ direction depth, (behind events).Walking direction depth →
        1 ≤ depth.toNat ∧ depth.toNat ≤ 65535)
      ∧ (∀ direction depth, (behind events).stage = .scanDecode direction depth →
        ∀ byte, (behind events).CountsExactly direction depth byte)
      ∧ (∀ direction depth, (behind events).Walking direction depth → ∀ later,
        (∀ k ≤ later.length, (behind (events ++ later.take k)).stage.walk?.isSome = true) →
          (∃ now, (behind (events ++ later)).Walking direction now)
            ∧ (behind (events ++ later)).ptr = (behind events).ptr)
      ∧ ((behind events).halted = true → (behind events).request = .idle
        ∧ ∀ later, .reset ∉ later → behind (events ++ later) = behind events) := by
  refine ⟨?_, ?_, ?_, ?_⟩
  · intro direction depth hwalk
    exact ⟨one_le_toNat (depth_ne_zero hwalk), Nat.le_of_lt_succ depth.toNat_lt⟩
  · intro direction depth hstage byte
    -- A core that consumes a byte under a walk is on the walk, so a bracket is open.
    have hwalk : (behind events).Walking direction depth := by
      rw [Walking, hstage]
      rfl
    exact countsExactly_of_ne_zero hstage (depth_ne_zero hwalk) byte
  · intro direction depth hwalk later hlasts
    exact walking_kept hwalk hlasts
  · intro hhalted
    refine ⟨request_of_halted hhalted, ?_⟩
    intro later hreset
    rw [behind_append, foldl_after_of_halted hhalted hreset]

/-- After a stray edge and a reset, the core moves its cell pointer and sets out from a `[` over a
zero cell. -/
def settingOut : List Event :=
  [.clock 5, .reset, .clock 7, .clock 62, .clock 0, .clock 91, .clock 3, .clock 0]

/-- On its walk it reads a `[` and a `]`, and asks for one more byte. -/
def walkingOn : List Event :=
  [.clock 9, .clock 91, .clock 1, .clock 93, .clock 5]

/-- That is a `]` again, and the next one is zero. -/
def stopping : List Event :=
  [.clock 93, .clock 2, .clock 0]

/-- The walk over `[]]` has one bracket open when it comes to the last byte, which ends it. Two more
edges change nothing in the core that has stopped. -/
theorem count_exact_nested :
    (behind settingOut).Walking .forward 1
      ∧ (∃ now, (behind (settingOut ++ walkingOn)).Walking .forward now)
      ∧ (behind (settingOut ++ walkingOn)).ptr = (behind settingOut).ptr
      ∧ (behind (settingOut ++ walkingOn)).stage = .scanDecode .forward 1
      ∧ (behind (settingOut ++ walkingOn)).edge 93 = ⟨5, 1, .fetch⟩
      ∧ (behind (settingOut ++ walkingOn ++ stopping)).request = .idle
      ∧ behind (settingOut ++ walkingOn ++ stopping ++ [.clock 43, .clock 91])
        = behind (settingOut ++ walkingOn ++ stopping) := by
  have hsets : (behind settingOut).Walking .forward 1 := by decide
  have hlasts : ∀ k ≤ walkingOn.length,
      (behind (settingOut ++ walkingOn.take k)).stage.walk?.isSome = true := by decide
  have hstage : (behind (settingOut ++ walkingOn)).stage = .scanDecode .forward 1 := rfl
  obtain ⟨-, -, hkept, -⟩ := count_exact settingOut
  obtain ⟨-, hexact, -, -⟩ := count_exact (settingOut ++ walkingOn)
  obtain ⟨-, -, -, hrests⟩ := count_exact (settingOut ++ walkingOn ++ stopping)
  obtain ⟨hwalk, hptr⟩ := hkept .forward 1 hsets walkingOn hlasts
  obtain ⟨hidle, hstays⟩ := hrests rfl
  exact ⟨hsets, hwalk, hptr, hstage, (hexact .forward 1 hstage 93).leaves rfl, hidle,
    hstays [.clock 43, .clock 91] (by decide)⟩

end Core

end TapeBench
