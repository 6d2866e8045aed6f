import Mathlib.Logic.Function.Iterate
import TapeBench.Proofs.Core.Turns
import TapeBench.Proofs.Meaning.Brackets

/-!
# `TapeBench.Proofs.Core.Walk`: the walk of the core to a bracket

The core finds the partner of a bracket by going over the program one byte at a time, two turns for
each byte. `nested` does the same on a list of bytes. `Along` says that the program holds the bytes
of the list where the core comes along, and that none of them is zero.

* `leads_walk`: the core reads the bytes up to the partner and ends up behind it; if there is no
  partner among the bytes, it reads them all and walks on.

As long as the open brackets and the bytes ahead are fewer than 65536 together, the count of open
brackets does not overflow.
-/

set_option autoImplicit false

namespace TapeBench

open Bus (Op)
open Memory (Rom)
open Meaning (nested nested_cons)

/-- The stores after some more program reads. -/
def Peripheral.walked (bus : Peripheral) (reads : Nat) : Peripheral :=
  { bus with tally := { bus.tally with readProgram := bus.tally.readProgram + reads } }

/-- A walk of some bytes behind a read of one byte is a walk of one byte more. -/
theorem Peripheral.walked_counted (bus : Peripheral) (reads : Nat) :
    (bus.counted .readProgram).walked reads = bus.walked (reads + 1) := by
  simp only [walked, counted, Tally.record]
  rw [Nat.add_assoc, Nat.add_comm 1 reads]

namespace Addressed

/-- The program holds `bytes` from `pc` on in a direction. None of them is zero. -/
def Along (direction : Direction) (program : Rom) (pc : UInt16) : List UInt8 → Prop
  | [] => True
  | byte :: rest =>
    program.read pc = byte ∧ byte ≠ 0 ∧ Along direction program (direction.advance pc) rest

/-! ### One byte -/

section Scan

variable {pc ptr : UInt16} {stage : Stage} {direction : Direction} {inner : Nat} {byte : UInt8}

/-- The count of open brackets is never zero on a walk. -/
theorem depth_ne_zero (h : inner + 1 ≤ 65535) : UInt16.ofNat (inner + 1) ≠ 0 := by
  rw [Ne, UInt16.ofNat_eq_iff_mod_eq_toNat, UInt16.toNat_zero]
  omega

/-- One more bracket is open. The bound on `inner` keeps the count away from its largest value, at
which the core would stop. -/
theorem scan_opener (hbyte : byte ≠ 0) (hopen : byte = direction.opener.byte)
    (h : inner + 2 ≤ 65535) :
    Core.scan ⟨pc, ptr, stage⟩ direction (.ofNat (inner + 1)) byte
      = ⟨direction.advance pc, ptr, .scan direction (.ofNat (inner + 2))⟩ := by
  -- Within the bound the core does not run into its check for an overflow.
  have hfull : ¬ UInt16.ofNat (inner + 1) = 65535 := by
    rw [UInt16.ofNat_eq_iff_mod_eq_toNat]
    simp only [UInt16.reduceToNat]
    omega
  have hsucc : UInt16.ofNat (inner + 1) + 1 = UInt16.ofNat (inner + 2) :=
    (UInt16.ofNat_add (inner + 1) 1).symm
  rw [Core.scan, if_neg hbyte, if_pos hopen, if_neg hfull, hsucc, Core.walk,
    if_neg (depth_ne_zero h)]

/-- The bracket in search closes, and the core goes on behind it. -/
theorem scan_closer_zero (hbyte : byte ≠ 0) (hopen : byte ≠ direction.opener.byte)
    (hclose : byte = direction.closer.byte) :
    Core.scan ⟨pc, ptr, stage⟩ direction (.ofNat 1) byte = ⟨pc + 1, ptr, .fetch⟩ := by
  rw [Core.scan, if_neg hbyte, if_neg hopen, if_pos hclose]
  rfl

/-- Another bracket closes. -/
theorem scan_closer_succ (hbyte : byte ≠ 0) (hopen : byte ≠ direction.opener.byte)
    (hclose : byte = direction.closer.byte) (h : inner + 2 ≤ 65535) :
    Core.scan ⟨pc, ptr, stage⟩ direction (.ofNat (inner + 2)) byte
      = ⟨direction.advance pc, ptr, .scan direction (.ofNat (inner + 1))⟩ := by
  have hpred : UInt16.ofNat (inner + 2) - 1 = UInt16.ofNat (inner + 1) := by
    rw [show inner + 2 = inner + 1 + 1 from rfl, UInt16.ofNat_add (inner + 1) 1]
    exact UInt16.add_sub_cancel _ _
  rw [Core.scan, if_neg hbyte, if_neg hopen, if_pos hclose, hpred, Core.walk,
    if_neg (depth_ne_zero (by omega))]

/-- A byte that is no bracket is passed over. -/
theorem scan_other (hbyte : byte ≠ 0) (hopen : byte ≠ direction.opener.byte)
    (hclose : byte ≠ direction.closer.byte) (h : inner + 1 ≤ 65535) :
    Core.scan ⟨pc, ptr, stage⟩ direction (.ofNat (inner + 1)) byte
      = ⟨direction.advance pc, ptr, .scan direction (.ofNat (inner + 1))⟩ := by
  rw [Core.scan, if_neg hbyte, if_neg hopen, if_neg hclose, Core.walk,
    if_neg (depth_ne_zero h)]

end Scan

/-! ### A whole walk -/

/-- Number of bytes that a walk reads, given what `nested` finds. -/
def walkReads (bytes : List UInt8) : (found : Option Nat) → Nat
  | some passed => passed + 1
  | none => bytes.length

/-- Where a walk from `pc` ends, given what `nested` finds: behind the partner, or behind all the
bytes and still on its way with `depth` open brackets. -/
def walkEnd (direction : Direction) (pc ptr depth : UInt16) (bytes : List UInt8) :
    (found : Option Nat) → Core
  | some passed => ⟨direction.advance^[passed] pc + 1, ptr, .fetch⟩
  | none => ⟨direction.advance^[bytes.length] pc, ptr, .scan direction depth⟩

section Walk

variable (direction : Direction) (ptr : UInt16)

/-- A walk that goes over a byte takes two turns for it, and the rest of its turns behind it. It is
stated with the count before and behind the byte, so that it serves openers, inner closers and all
other bytes. -/
theorem leads_walk_cons {pc from' to' : UInt16} {byte : UInt8} {rest : List UInt8}
    {found : Option Nat} {bus : Peripheral} {cycles : Nat} (valIn : UInt8)
    (hread : bus.program.read pc = byte)
    (hscan : Core.scan ⟨pc, ptr, .scanDecode direction from'⟩ direction from' byte
      = ⟨direction.advance pc, ptr, .scan direction to'⟩)
    (hrest : ∃ depth value, Leads (2 * walkReads rest found)
      ⟨⟨direction.advance pc, ptr, .scan direction to'⟩, byte, bus.counted .readProgram,
        cycles + 2⟩
      ⟨walkEnd direction (direction.advance pc) ptr depth rest found, value,
        (bus.counted .readProgram).walked (walkReads rest found),
        cycles + 2 + 2 * walkReads rest found⟩) :
    ∃ depth value, Leads (2 * walkReads (byte :: rest) (found.map (· + 1)))
      ⟨⟨pc, ptr, .scan direction from'⟩, valIn, bus, cycles⟩
      ⟨walkEnd direction pc ptr depth (byte :: rest) (found.map (· + 1)), value,
        bus.walked (walkReads (byte :: rest) (found.map (· + 1))),
        cycles + 2 * walkReads (byte :: rest) (found.map (· + 1))⟩ := by
  obtain ⟨depth, value, hwalk⟩ := hrest
  have hreads : walkReads (byte :: rest) (found.map (· + 1)) = walkReads rest found + 1 := by
    cases found <;> rfl
  have hend : walkEnd direction pc ptr depth (byte :: rest) (found.map (· + 1))
      = walkEnd direction (direction.advance pc) ptr depth rest found := by
    cases found <;> rfl
  have hbyte := leads_scan pc ptr valIn bus cycles direction from'
  rw [hread, hscan] at hbyte
  refine ⟨depth, value, ?_⟩
  rw [hreads, hend, ← Peripheral.walked_counted, show 2 * (walkReads rest found + 1)
    = 2 + 2 * walkReads rest found by omega, ← Nat.add_assoc cycles]
  exact hbyte.trans hwalk

/-- A walk with `inner` open brackets besides the one in search, over bytes that do not let the
count overflow. It takes two turns for each byte that it reads, and ends behind the partner or at
the end of the bytes. -/
theorem leads_walk {bytes : List UInt8} {inner : Nat}
    (hdepth : inner + 1 + bytes.length ≤ 65535) {pc : UInt16} {bus : Peripheral}
    (halong : Along direction bus.program pc bytes) (valIn : UInt8) (cycles : Nat) :
    ∃ depth value,
      Leads (2 * walkReads bytes (nested direction.opener.byte direction.closer.byte inner bytes))
        ⟨⟨pc, ptr, .scan direction (.ofNat (inner + 1))⟩, valIn, bus, cycles⟩
        ⟨walkEnd direction pc ptr depth bytes
            (nested direction.opener.byte direction.closer.byte inner bytes),
          value,
          bus.walked
            (walkReads bytes (nested direction.opener.byte direction.closer.byte inner bytes)),
          cycles + 2 * walkReads bytes
            (nested direction.opener.byte direction.closer.byte inner bytes)⟩ := by
  -- Induction on the bytes ahead, with `inner` free, because brackets on the way open and close.
  -- `hdepth` is what is left of the bound: what a bracket adds to the count, its byte takes off.
  induction bytes generalizing inner pc bus valIn cycles with
  | nil => exact ⟨_, _, Leads.refl _⟩
  | cons byte rest ih =>
      obtain ⟨hread, hzero, halong⟩ := halong
      -- A read is counted and leaves the program as it is.
      have hrest : Along direction (bus.counted .readProgram).program (direction.advance pc) rest :=
        halong
      rw [List.length_cons] at hdepth
      rw [nested_cons]
      by_cases hopen : byte = direction.opener.byte
      · rw [if_pos hopen]
        have hdepth' : inner + 1 + 1 + rest.length ≤ 65535 := by omega
        exact leads_walk_cons direction ptr valIn hread (scan_opener hzero hopen (by omega))
          (ih hdepth' hrest _ _)
      · rw [if_neg hopen]
        by_cases hclose : byte = direction.closer.byte
        · rw [if_pos hclose]
          cases inner with
          | zero =>
              -- This is the bracket in search, so the walk is over.
              have hbyte := leads_scan pc ptr valIn bus cycles direction (.ofNat 1)
              rw [hread, scan_closer_zero hzero hopen hclose] at hbyte
              exact ⟨0, byte, hbyte⟩
          | succ inner =>
              have hdepth' : inner + 1 + rest.length ≤ 65535 := by omega
              exact leads_walk_cons direction ptr valIn hread
                (scan_closer_succ hzero hopen hclose (by omega)) (ih hdepth' hrest _ _)
        · rw [if_neg hclose]
          have hdepth' : inner + 1 + rest.length ≤ 65535 := by omega
          exact leads_walk_cons direction ptr valIn hread (scan_other hzero hopen hclose (by omega))
            (ih hdepth' hrest _ _)

end Walk

end Addressed

end TapeBench
