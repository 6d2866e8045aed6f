import TapeBench.Serial.Phase
import TapeBench.Serial.Register

/-!
# `TapeBench.Proofs.Serial.Register`: nothing is lost in the registers

* `InputRegister.ofBits_toBits`: the device reads what the host wrote.
* `OutputRegister.ofBits_toBits`: the host reads what the device shows, in a phase of the link.
* `addr_of_bytes`: an address is its two bytes, the high one first.
-/

set_option autoImplicit false

namespace TapeBench.Serial

/-- The device reads what the host wrote. -/
@[simp] theorem InputRegister.ofBits_toBits (register : InputRegister) :
    ofBits register.toBits = register := by
  -- There are 1024 registers.
  have hall : ∀ (enable opDone : Bool) (busIn : Fin 256),
      ofBits (toBits ⟨enable, opDone, .ofFin busIn⟩) = ⟨enable, opDone, .ofFin busIn⟩ := by
    decide +kernel
  obtain ⟨enable, opDone, busIn⟩ := register
  exact hall enable opDone busIn.toFin

/-- The host reads what the device shows, in a phase of the link. -/
theorem OutputRegister.ofBits_toBits (busOut : UInt8) (phase : Phase) (halted : Bool) :
    ofBits (toBits ⟨busOut, phase.state, halted⟩) = ⟨busOut, phase.state, halted⟩ := by
  -- There are 2560 registers of this kind.
  have hall : ∀ (halted : Bool) (busOut : Fin 256), ∀ phase ∈ Phase.all,
      ofBits (toBits ⟨.ofFin busOut, phase.state, halted⟩)
        = ⟨.ofFin busOut, phase.state, halted⟩ := by
    decide +kernel
  exact hall halted busOut.toFin phase (by cases phase <;> decide)

/-- An address is its two bytes, the high one first. The link carries them in two phases, as its
register has room for one byte. -/
theorem addr_of_bytes (addr : UInt16) :
    (addr >>> 8).toUInt8.toUInt16 <<< 8 ||| addr.toUInt8.toUInt16 = addr := by
  apply UInt16.toNat_inj.mp
  -- The bytes do not overlap, so the bitwise or is a sum.
  have hlow : addr.toNat % 256 < 2 ^ 8 := Nat.mod_lt _ (by decide)
  have hhigh : addr.toNat >>> 8 < 256 := by
    have := addr.toNat_lt
    rw [Nat.shiftRight_eq_div_pow]
    omega
  have hfits : (addr.toNat >>> 8) <<< 8 < 65536 := by
    rw [Nat.shiftLeft_eq]
    omega
  simp only [UInt16.toNat_or, UInt16.toNat_shiftLeft, UInt8.toNat_toUInt16, UInt16.toNat_toUInt8,
    UInt16.toNat_shiftRight, UInt16.reduceToNat, Nat.reduceMod, Nat.reducePow]
  rw [Nat.mod_eq_of_lt hhigh, Nat.mod_eq_of_lt hfits, ← Nat.shiftLeft_add_eq_or_of_lt hlow,
    Nat.shiftLeft_eq, Nat.shiftRight_eq_div_pow]
  omega

end TapeBench.Serial
