import TapeBench.Memory.Rom

/-!
# `TapeBench.Memory.Ram`: one cell for each address

A memory of 65536 cells that starts at zero, or with an image at address zero. A write is visible
to the next read of its address and to no other.

* `Ram`: the cells, with `read`, `write`, `zero` and `load`.
* `read_write`: what a read gives after a write.
* `read_of_load`: what a read gives after an image was loaded.
-/

set_option autoImplicit false

namespace TapeBench.Memory

/-- One cell for each address, in address order. -/
structure Ram where
  cells : Vector UInt8 addressSpace
  deriving DecidableEq

namespace Ram

/-- Every cell is zero. -/
def zero : Ram :=
  ⟨Vector.replicate addressSpace 0⟩

/-- Puts an image at address zero and zeros behind it. -/
def load (image : Bytes) : Except Fault Ram :=
  if h : image.size ≤ addressSpace then
    .ok ⟨⟨⟨image.toList ++ List.replicate (addressSpace - image.size) 0⟩, by
      simp only [List.size_toArray, List.length_append, List.length_replicate,
        Array.length_toList]; omega⟩⟩
  else
    .error (.dataImageTooLarge image.size)

/-- Every address has a cell. -/
theorem toNat_lt (addr : UInt16) : addr.toNat < addressSpace :=
  addr.toNat_lt

/-- The cell at `addr`. -/
def read (ram : Ram) (addr : UInt16) : UInt8 :=
  have inside := toNat_lt addr
  ram.cells[addr.toNat]

/-- Writes `value` to the cell at `addr`. -/
def write (ram : Ram) (addr : UInt16) (value : UInt8) : Ram :=
  match ram with
  | ⟨cells⟩ => ⟨cells.set addr.toNat value (toNat_lt addr)⟩

/-- The cells in address order. -/
def toArray (ram : Ram) : Bytes :=
  ram.cells.toArray

/-- The cells that are not zero, with their addresses in order. -/
def nonzero (ram : Ram) : List (Nat × UInt8) :=
  (ram.toArray.toList.zipIdx.map fun (value, addr) => (addr, value)).filter fun cell => cell.2 ≠ 0

/-- A write is seen at its own address only. -/
theorem read_write (ram : Ram) (addr other : UInt16) (value : UInt8) :
    (ram.write addr value).read other = if addr = other then value else ram.read other := by
  simp only [read, write, Vector.getElem_set, UInt16.toNat_inj]

/-- Memory that starts at zero reads as zero everywhere. -/
@[simp] theorem read_zero (addr : UInt16) : zero.read addr = 0 := by
  simp [read, zero]

/-- A loaded image is followed by zeros. -/
theorem read_of_load {image : Bytes} {ram : Ram} (h : load image = .ok ram) (addr : UInt16) :
    ram.read addr = image.getD addr.toNat 0 := by
  unfold load at h
  split at h
  · cases h
    simp only [read, Vector.getElem_mk, List.getElem_toArray, List.getElem_append,
      List.getElem_replicate, Array.getElem_toList, Array.length_toList,
      Array.getD_eq_getD_getElem?, getElem?_def]
    split <;> rfl
  · cases h

end Ram

end TapeBench.Memory
