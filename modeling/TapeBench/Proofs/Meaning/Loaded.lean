import Mathlib.Data.List.TakeWhile
import TapeBench.Proofs.Core.Walk
import TapeBench.Proofs.Meaning.Interpreter

/-!
# `TapeBench.Proofs.Meaning.Loaded`: the source in the program memory

A source that was loaded from address zero on is followed by a zero byte. Addresses wrap around,
and the program is shorter than the address space, so the byte in front of the source is a zero as
well. `Loaded` says this, and that the source itself is free of zeros.

* `loaded_of_load`: every program of at most 65535 bytes is loaded in this way.
* `along_forward`, `along_backward`: what a walk finds to the right and to the left of a position.
-/

set_option autoImplicit false

namespace TapeBench.Meaning

open Addressed (Along)
open Memory (Rom)

/-- A source in program memory: its bytes from address zero on, none of them zero, and a zero on
either side of it. -/
structure Loaded (source : List UInt8) (program : Rom) : Prop where
  length_le : source.length ≤ 65535
  ne_zero : ∀ byte ∈ source, byte ≠ 0
  read_source : ∀ (pos : Nat) (byte : UInt8), source[pos]? = some byte →
    program.read (.ofNat pos) = byte
  read_end : program.read (.ofNat source.length) = 0
  read_last : program.read 65535 = 0

/-- Behind the bytes in front of the first zero there is a zero, or nothing. -/
theorem getD_length_takeWhile (bytes : List UInt8) :
    bytes.getD (bytes.takeWhile (· ≠ 0)).length 0 = 0 := by
  induction bytes with
  | nil => rfl
  | cons byte rest ih =>
      by_cases h : byte = 0
      · simp [h]
      · rw [List.takeWhile_cons_of_pos (by simpa using h), List.length_cons, List.getD_cons_succ]
        exact ih

/-- The byte at an address of a program that fits. -/
theorem read_ofNat {program : Rom} {pos : Nat} (h : pos ≤ 65535) :
    program.read (.ofNat pos) = program.bytes.toList.getD pos 0 := by
  have hpos : (UInt16.ofNat pos).toNat = pos := UInt16.toNat_ofNat_of_lt' (by
    rw [UInt16.size]; omega)
  rw [Rom.read, hpos, Array.getD_eq_getD_getElem?, List.getD_eq_getElem?_getD,
    Array.getElem?_toList]

/-- A program of at most 65535 bytes is loaded with its source in front. Behind the source comes its
first zero byte, or the memory that no byte was loaded into, and in either case a zero. -/
theorem loaded_of_load {bytes : Bytes} {program : Rom} (hload : Rom.load bytes = .ok program)
    (hsize : bytes.size ≤ 65535) : Loaded (sourceOf bytes) program := by
  have hbytes := Rom.bytes_of_load hload
  -- The source stops at the first zero byte, in front of whatever else the image holds.
  have hprefix : sourceOf bytes <+: bytes.toList := List.takeWhile_prefix _
  have hlength : (sourceOf bytes).length ≤ 65535 := by
    have hle := hprefix.length_le
    rw [Array.length_toList] at hle
    exact Nat.le_trans hle hsize
  refine ⟨hlength, ?_, ?_, ?_, ?_⟩
  · intro byte hbyte
    have := List.mem_takeWhile_imp hbyte
    simpa using this
  · intro pos byte hpos
    have hlt : pos < (sourceOf bytes).length := (List.getElem?_eq_some_iff.mp hpos).1
    rw [read_ofNat (by omega), hbytes, List.getD_eq_getElem?_getD,
      List.prefix_iff_getElem?.mp hprefix pos hlt, ← List.getElem?_eq_getElem hlt, hpos]
    rfl
  · rw [read_ofNat hlength, hbytes]
    exact getD_length_takeWhile _
  · -- The last byte of the address space is behind every image of at most 65535 bytes.
    have hnone : bytes[(65535 : UInt16).toNat]? = none :=
      Array.getElem?_eq_none (by simpa using hsize)
    rw [Rom.read, hbytes, Array.getD_eq_getD_getElem?, hnone]
    rfl

/-! ### What a walk finds -/

/-- To the right of a position there is the rest of the source, byte by byte as the core meets it on
a walk. -/
theorem along_forward {source : List UInt8} {program : Rom} (h : Loaded source program)
    (front back : List UInt8) (hsource : source = front ++ back) :
    Along .forward program (.ofNat front.length) back := by
  -- Each byte moves from `back` to the end of `front`, which is where the walk has come to.
  induction back generalizing front with
  | nil => exact trivial
  | cons byte rest ih =>
      have hread : source[front.length]? = some byte := by simp [hsource]
      refine ⟨h.read_source _ _ hread, h.ne_zero byte (by simp [hsource]), ?_⟩
      have hnext := ih (front ++ [byte]) (by simp [hsource])
      rw [List.length_append, List.length_singleton, UInt16.ofNat_add] at hnext
      exact hnext

/-- To the left of a position there is the source in front of it, in reverse. The walk begins one
address below the position, which wraps where there is nothing in front. -/
theorem along_backward {source : List UInt8} {program : Rom} (h : Loaded source program)
    (front back : List UInt8) (hsource : source = front ++ back) :
    Along .backward program (.ofNat front.length - 1) front.reverse := by
  -- The walk meets the last byte of `front` first.
  induction front using List.reverseRecOn generalizing back with
  | nil => exact trivial
  | append_singleton front byte ih =>
      have hpos : UInt16.ofNat (front ++ [byte]).length - 1 = UInt16.ofNat front.length := by
        rw [List.length_append, List.length_singleton, UInt16.ofNat_add]
        exact UInt16.add_sub_cancel _ _
      have hread : source[front.length]? = some byte := by simp [hsource]
      rw [hpos, List.reverse_append, List.reverse_singleton, List.singleton_append]
      exact ⟨h.read_source _ _ hread, h.ne_zero byte (by simp [hsource]),
        ih (byte :: back) (by simp [hsource])⟩

end TapeBench.Meaning
