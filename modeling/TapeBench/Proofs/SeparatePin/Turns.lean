import TapeBench.Proofs.SeparatePin.Load

/-!
# `TapeBench.Proofs.SeparatePin.Turns`: a processor with memories, one cycle at a time

While the chip is running, a cycle of the driver is one edge of its core: the chip serves its own
memories at that edge, and the driver serves input and output behind it.

* `Cpu.Ready`: the levels at the pins between two cycles.
* `Cpu.turned`: the chip after an edge.
* `Rig.cycle_internal`, `Rig.cycle_emits`, `Rig.cycle_accepts`, `Rig.cycle_starved`: one cycle, by
  what the core asks for.
-/

set_option autoImplicit false

namespace TapeBench.SeparatePin

open Bus (Op)
open Memory (Rom Ram)

namespace Cpu

/-- The chip is enabled and rests between two cycles. -/
structure Ready (cpu : Cpu) : Prop extends Resting cpu where
  lastClock : cpu.lastClock = false
  enable : cpu.enable = true

/-- The chip after an edge of its core, at which its memories were served. -/
def turned (cpu : Cpu) : Cpu :=
  { cpu with
    core := cpu.core.edge cpu.coreInput
    data := (serve cpu.program cpu.data cpu.core.request).1
    pending := (serve cpu.program cpu.data cpu.core.request).2 }

/-- An edge of the core touches none of the lines that a chip is ready by. -/
theorem Ready.turned {cpu : Cpu} (h : cpu.Ready) : cpu.turned.Ready :=
  ⟨⟨h.clock, h.reset, h.instrWrite⟩, h.lastClock, h.enable⟩

/-- Neither does a byte on the input pins. -/
theorem Ready.setInVal {cpu : Cpu} (h : cpu.Ready) (byte : UInt8) :
    (pins.setInVal byte cpu).Ready :=
  ⟨⟨h.clock, h.reset, h.instrWrite⟩, h.lastClock, h.enable⟩

/-- Held with a high clock, a chip that is ready takes an edge. -/
theorem settle_high {cpu : Cpu} (h : cpu.Ready) (settleNs : UInt32) :
    pins.settle settleNs (pins.setClock true cpu)
      = ({ cpu.turned with clock := true, lastClock := true },
          (cpu.core.edgeMessages cpu.coreInput).map Note.message) := by
  obtain ⟨core, program, data, pending, clock, lastClock, reset, enable, inVal, instrAddr, instrIn,
    instrWrite⟩ := cpu
  obtain ⟨⟨hclock, hreset, hwrite⟩, hlast, henable⟩ := h
  simp only at hclock hreset hwrite hlast henable
  subst hclock hreset hwrite hlast henable
  rfl

/-- Held with a low clock, a chip only sees the clock. -/
theorem settle_low {cpu : Cpu} (h : cpu.Ready) (settleNs : UInt32) :
    pins.settle settleNs { cpu with lastClock := true } = (cpu, []) := by
  obtain ⟨core, program, data, pending, clock, lastClock, reset, enable, inVal, instrAddr, instrIn,
    instrWrite⟩ := cpu
  obtain ⟨⟨hclock, hreset, hwrite⟩, hlast, henable⟩ := h
  simp only at hclock hreset hwrite hlast henable
  subst hclock hreset hwrite hlast henable
  rfl

end Cpu

namespace Rig

open Cpu (pins)

variable {cpu : Cpu} (h : cpu.Ready) (channel : Channel)

include h

/-- The first half of a cycle, up to the falling clock: the pins are sampled and the chip takes an
edge. -/
theorem rise_pins (driver : Driver) :
    (⟨driver, cpu, channel⟩ : Rig Cpu).rise pins
      = ⟨.ok (pins.sample cpu),
          ⟨driver, { cpu.turned with clock := true, lastClock := true }, channel⟩,
          (cpu.core.edgeMessages cpu.coreInput).map Note.message⟩ := by
  simp only [rise, Cpu.settle_high h]
  rfl

/-- Behind the falling clock the chip is ready again, and has not seen the low clock yet. -/
theorem lower_pins (driver : Driver) :
    (⟨driver, { cpu.turned with clock := true, lastClock := true }, channel⟩ : Rig Cpu).lower pins
      = ⟨driver, { cpu.turned with lastClock := true }, channel⟩ := by
  simp only [lower, pins, Cpu.turned, h.clock]

/-- The last half of a cycle: the chip sees the low clock, and the cycle counts. -/
theorem finish_pins (settleNs : UInt32) (cycles : Nat) (tally : Tally) :
    (⟨⟨settleNs, cycles, tally⟩, { cpu with lastClock := true }, channel⟩ : Rig Cpu).finish pins
      = ⟨.ok (), ⟨⟨settleNs, cycles + 1, tally⟩, cpu, channel⟩, []⟩ := by
  simp only [finish, Cpu.settle_low h]
  rfl

variable (settleNs : UInt32) (cycles : Nat) (tally : Tally)

/-- A cycle in which neither input nor output is asked for is an edge. -/
theorem cycle_internal (hemits : cpu.core.request.op ≠ .writeIo)
    (hreads : cpu.core.request.op ≠ .readIo) :
    (⟨⟨settleNs, cycles, tally⟩, cpu, channel⟩ : Rig Cpu).cycle pins
      = ⟨.ok (), ⟨⟨settleNs, cycles + 1, tally⟩, cpu.turned, channel⟩,
          (cpu.core.edgeMessages cpu.coreInput).map Note.message⟩ := by
  have hout : (pins.sample cpu).outEnable = false := decide_eq_false hemits
  have hin : (pins.sample cpu).inReading = false := decide_eq_false hreads
  rw [cycle, rise_pins h]
  simp only [Step.andThen, lower_pins h, collect, feed, hout, hin, Bool.false_eq_true, if_false,
    Step.done, finish_pins h.turned, List.append_nil]

/-- A cycle in which a byte is emitted is an edge, and the byte is collected. It is the one that the
core shows in front of the edge: the driver samples as it raises the clock, and the device takes its
edge when it is held. -/
theorem cycle_emits (hemits : cpu.core.request.op = .writeIo) :
    (⟨⟨settleNs, cycles, tally⟩, cpu, channel⟩ : Rig Cpu).cycle pins
      = ⟨.ok (), ⟨⟨settleNs, cycles + 1, tally.record .writeIo⟩, cpu.turned,
            channel.write cpu.core.request.value⟩,
          (cpu.core.edgeMessages cpu.coreInput).map Note.message
            ++ [.event (.transaction cycles .writeIo 0 cpu.core.request.value 0)]⟩ := by
  have hout : (pins.sample cpu).outEnable = true := decide_eq_true hemits
  have hval : (pins.sample cpu).outVal = cpu.core.request.value := if_pos hemits
  have hin : (pins.sample cpu).inReading = false :=
    decide_eq_false (by rw [hemits]; decide)
  rw [cycle, rise_pins h]
  simp only [Step.andThen, lower_pins h, collect, feed, hout, hval, hin, Bool.false_eq_true,
    if_true, if_false, Step.done, finish_pins h.turned, List.append_nil]

/-- A cycle in which a byte is read is an edge, and the byte is at the input pins behind it, where
the core finds it at the next edge. -/
theorem cycle_accepts (hreads : cpu.core.request.op = .readIo) {byte : UInt8} {next : Channel}
    {notes : List Note} (hread : channel.read = ⟨.ok byte, next, notes⟩) :
    (⟨⟨settleNs, cycles, tally⟩, cpu, channel⟩ : Rig Cpu).cycle pins
      = ⟨.ok (), ⟨⟨settleNs, cycles + 1, tally.record .readIo⟩, { cpu.turned with inVal := byte },
            next⟩,
          (cpu.core.edgeMessages cpu.coreInput).map Note.message
            ++ ((if channel.fallsBack then [.event (.inputFallback cycles)] else []) ++ notes
              ++ [.event (.transaction cycles .readIo 0 0 byte)])⟩ := by
  have hout : (pins.sample cpu).outEnable = false :=
    decide_eq_false (by rw [hreads]; decide)
  have hin : (pins.sample cpu).inReading = true := decide_eq_true hreads
  -- The byte is set at the input pins before the chip sees the low clock.
  have hfinish :
      (⟨⟨settleNs, cycles, tally.record .readIo⟩,
          pins.setInVal byte { cpu.turned with lastClock := true }, next⟩ : Rig Cpu).finish pins
        = ⟨.ok (), ⟨⟨settleNs, cycles + 1, tally.record .readIo⟩,
            { cpu.turned with inVal := byte }, next⟩, []⟩ :=
    finish_pins (h.turned.setInVal byte) next settleNs cycles (tally.record .readIo)
  rw [cycle, rise_pins h]
  simp only [Step.andThen, lower_pins h, collect, feed, hout, hin, hread, Bool.false_eq_true,
    if_true, if_false, Step.done, hfinish, List.append_nil, List.nil_append]

/-- A cycle in which a byte is read past the end of the input faults. The edge has been taken by
then, so a log that keeps the lines of the core has those of the edge. -/
theorem cycle_starved (hreads : cpu.core.request.op = .readIo) {fault : Fault} {next : Channel}
    {notes : List Note} (hread : channel.read = ⟨.error fault, next, notes⟩) :
    ∃ stuck, (⟨⟨settleNs, cycles, tally⟩, cpu, channel⟩ : Rig Cpu).cycle pins
      = ⟨.error fault, stuck,
          (cpu.core.edgeMessages cpu.coreInput).map Note.message
            ++ ((if channel.fallsBack then [.event (.inputFallback cycles)] else [])
              ++ notes)⟩ := by
  have hout : (pins.sample cpu).outEnable = false :=
    decide_eq_false (by rw [hreads]; decide)
  have hin : (pins.sample cpu).inReading = true := decide_eq_true hreads
  rw [cycle, rise_pins h]
  simp only [Step.andThen, lower_pins h, collect, feed, hout, hin, hread, Bool.false_eq_true,
    if_true, if_false, Step.done]
  exact ⟨_, rfl⟩

end Rig

end TapeBench.SeparatePin
