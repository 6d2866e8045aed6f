import TapeBench.Fault

/-!
# `TapeBench.Memory.Rom`: the program image

A program is fixed when it is loaded. It holds at most one byte for each of the 65536 addresses,
and every address past its end reads as zero, which is how a processor finds the end.

* `Bytes`: a sequence of bytes.
* `addressSpace`: the number of addresses.
* `Rom`: the loaded image; `Rom.load` refuses an image that does not fit.
-/

set_option autoImplicit false

namespace TapeBench

/-- A sequence of bytes. -/
abbrev Bytes := Array UInt8

/-- Number of addresses, each of 16 bits. -/
def addressSpace : Nat := 65536

namespace Memory

/-- A program image that fits the address space:

- `bytes`: the image, from address zero on;
- `size_le`: the image fits. -/
structure Rom where
  bytes : Bytes
  size_le : bytes.size ≤ addressSpace
  deriving DecidableEq

namespace Rom

/-- The image without any byte. -/
def empty : Rom :=
  ⟨#[], Nat.zero_le _⟩

/-- Loads an image at address zero. -/
def load (bytes : Bytes) : Except Fault Rom :=
  if h : bytes.size ≤ addressSpace then
    .ok ⟨bytes, h⟩
  else
    .error (.programTooLarge bytes.size)

/-- The byte at `addr`, which is zero past the end of the image. -/
def read (rom : Rom) (addr : UInt16) : UInt8 :=
  rom.bytes.getD addr.toNat 0

/-- Number of loaded bytes. -/
def size (rom : Rom) : Nat :=
  rom.bytes.size

/-- A loaded image holds the given bytes. -/
theorem bytes_of_load {bytes : Bytes} {rom : Rom} (h : load bytes = .ok rom) :
    rom.bytes = bytes := by
  unfold load at h
  split at h
  · cases h
    rfl
  · cases h

end Rom

end Memory

end TapeBench
