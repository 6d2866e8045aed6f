import TapeBench.Proofs.Reaches
import TapeBench.Proofs.Samples
import TapeBench.Proofs.Trace

/-!
# `TapeBench.Proofs.SeparatePin.Sampling`: every byte that is sampled is collected

On separate pins a cycle samples all pins at the rising edge, collects the byte that was emitted and
feeds the one that was asked for. The bytes that are fed are those of the input, and behind its end
those of the policy.

* `Channel.byteAt?`: the input, byte by byte, with what the policy gives behind its end.
* `Feeds`: some bytes are the next ones of a channel.
* `Turn`: the pins that were sampled, with the byte that was fed.
* `Sampled`: the calls, the trace and the streams behind some turns.
* `exists_sampled`: every sequence of cycles that succeed is made of turns.
-/

set_option autoImplicit false

namespace TapeBench

/-! ### The input, byte by byte -/

/-- The byte that the read behind `k` others will give: the input, and what the policy gives for a
read behind its end. -/
def Channel.byteAt? (channel : Channel) (k : Nat) : Option UInt8 :=
  match channel.input[k]?, channel.onExhausted with
  | some byte, _ => some byte
  | none, .returnByte byte => some byte
  | none, .fail => none

/-- A read leaves the output alone, whether it takes a byte of the input or what the policy gives.
-/
theorem Channel.output_of_read {channel next : Channel} {byte : UInt8} {notes : List Note}
    (h : channel.read = ⟨.ok byte, next, notes⟩) : next.output = channel.output := by
  obtain ⟨input, consumed, output, onExhausted⟩ := channel
  cases input with
  | cons first rest =>
      cases h
      rfl
  | nil =>
      cases onExhausted with
      | fail => cases h
      | returnByte fallback =>
          cases h
          rfl

/-- Reading some bytes leads from one channel to another:

- `given`: they are the next ones;
- `left`: the reads behind them go on where they end. -/
structure Feeds (channel : Channel) (bytes : List UInt8) (next : Channel) : Prop where
  given : ∀ k byte, bytes[k]? = some byte → channel.byteAt? k = some byte
  left : ∀ k, next.byteAt? k = channel.byteAt? (bytes.length + k)

namespace Feeds

variable {channel middle next : Channel} {bytes more : List UInt8}

/-- Without reads, a channel is left as one that will give the same bytes. -/
theorem nil (hnext : ∀ k, next.byteAt? k = channel.byteAt? k) : Feeds channel [] next where
  given := by
    intro k byte h
    cases h
  left := by
    intro k
    rw [hnext, List.length_nil, Nat.zero_add]

/-- One read. The byte is the next one of the input, or the byte of the policy once there is none.
What is left is the input without it. -/
theorem of_read {byte : UInt8} {notes : List Note}
    (h : channel.read = ⟨.ok byte, next, notes⟩) : Feeds channel [byte] next := by
  obtain ⟨input, consumed, output, onExhausted⟩ := channel
  -- One byte is taken, so only the place of the first one has to be looked at.
  have hbyte : ∀ k given, [byte][k]? = some given → k = 0 ∧ given = byte := by
    intro k given hgiven
    cases k with
    | zero => exact ⟨rfl, (Option.some.inj hgiven).symm⟩
    | succ k => cases hgiven
  cases input with
  | cons first rest =>
      cases h
      refine ⟨?_, ?_⟩
      · intro k given hgiven
        obtain ⟨rfl, rfl⟩ := hbyte k given hgiven
        rfl
      · intro k
        rw [List.length_singleton, Nat.add_comm 1 k]
        rfl
  -- The input is used up. A policy that names a byte goes on forever, and the other one fails.
  | nil =>
      cases onExhausted with
      | fail => cases h
      | returnByte fallback =>
          cases h
          refine ⟨?_, fun _ => rfl⟩
          intro k given hgiven
          obtain ⟨rfl, rfl⟩ := hbyte k given hgiven
          rfl

/-- Reads may be made in parts. The second part takes up the input where the first one has left it.
-/
theorem append (first : Feeds channel bytes middle) (second : Feeds middle more next) :
    Feeds channel (bytes ++ more) next where
  given := by
    intro k byte hbyte
    -- A byte behind the first ones is read from where they end.
    rcases Nat.lt_or_ge k bytes.length with hlt | hge
    · rw [List.getElem?_append_left hlt] at hbyte
      exact first.given k byte hbyte
    · rw [List.getElem?_append_right hge] at hbyte
      have hlater := second.given _ byte hbyte
      rwa [first.left, Nat.add_sub_cancel' hge] at hlater
  left := by
    intro k
    rw [second.left, first.left, List.length_append, Nat.add_assoc]

end Feeds

/-! ### The pins -/

namespace SeparatePin

variable {σ : Type}

/-- A call to the pins of a device with separate pins. -/
def Device.driven (pins : Device σ) : PinCall → σ → σ
  | .inVal value => pins.setInVal value
  | .instrAddr addr => pins.setInstrAddr addr
  | .instrIn value => pins.setInstrIn value
  | .instrWrite high => pins.setInstrWrite high
  | call => pins.toClockedDevice.driven call

/-- The pins that were sampled, with the byte that was fed if they asked for one. -/
structure Turn where
  sample : Sample
  byte : UInt8

/-- The call that feeds the byte. -/
def Turn.served (turn : Turn) : List PinCall :=
  if turn.sample.inReading then [.inVal turn.byte] else []

/-- The calls of a turn. -/
def Turn.calls (ns : UInt32) (turn : Turn) : List PinCall :=
  risingCalls ns ++ fallingCalls ns turn.served

/-- The transfers of a turn. The write comes before the read. -/
def Turn.transfers (turn : Turn) (time : Nat) : List Transfer :=
  (if turn.sample.outEnable then [⟨time, ⟨.writeIo, 0, turn.sample.outVal⟩, 0⟩] else [])
    ++ if turn.sample.inReading then [⟨time, ⟨.readIo, 0, 0⟩, turn.byte⟩] else []

/-- The bytes that some turns have emitted. -/
def emitted (turns : List Turn) : List UInt8 :=
  (turns.filter fun turn => turn.sample.outEnable).map fun turn => turn.sample.outVal

/-- A turn emits one byte or none. -/
theorem emitted_singleton (turn : Turn) :
    emitted [turn] = if turn.sample.outEnable then [turn.sample.outVal] else [] := by
  cases h : turn.sample.outEnable <;> simp [emitted, h]

/-- The bytes that some turns were fed. -/
def fed (turns : List Turn) : List UInt8 :=
  (turns.filter fun turn => turn.sample.inReading).map Turn.byte

/-- Turns may be gone over in parts. -/
theorem fed_append (turns more : List Turn) : fed (turns ++ more) = fed turns ++ fed more := by
  rw [fed, List.filter_append, List.map_append]
  rfl

/-- A turn raises the clock once. -/
theorem samples_calls (pins : Device σ) (turn : Turn) (ns : UInt32) (device : σ) :
    samples pins.driven pins.sample (turn.calls ns) device
      = [pins.sample (pins.setClock true device)] := by
  have hnone : .clock true ∉ fallingCalls ns turn.served := by
    rw [Turn.served]
    split <;> simp [fallingCalls]
  rw [Turn.calls, samples_append, samples_eq_nil _ _ hnone]
  rfl

/-- The rig, with nothing taken down yet. -/
def Rig.recording (rig : Rig σ) : Rig (Recorded PinCall σ) :=
  ⟨rig.driver, ⟨rig.device, #[]⟩, rig.channel⟩

/-- What a driver has done behind some cycles:

- `settle`: it holds the device as long as ever;
- `calls`: each cycle has raised the clock, held the device, lowered the clock, fed the byte that
  was asked for and held the device again;
- `device`: nothing else was done to the device;
- `sampled`: the cycles are what was sampled, in order;
- `cycles`: each of them is counted;
- `output`: the output has grown by the bytes that they emitted, in order;
- `fed`: they were fed the next bytes of the input, in order;
- `served`: the transfers of each cycle were traced, the write before the read. -/
structure Sampled (pins : Device σ) (start : Rig σ) (turns : List Turn) (trace : List TraceEvent)
    (last : Rig (Recorded PinCall σ)) : Prop where
  settle : last.driver.settleNs = start.driver.settleNs
  calls : last.device.calls.toList = turns.flatMap (Turn.calls start.driver.settleNs)
  device : last.device.device = replay pins.driven last.device.calls.toList start.device
  sampled : samples pins.driven pins.sample last.device.calls.toList start.device
    = turns.map Turn.sample
  cycles : last.driver.cycles = start.driver.cycles + turns.length
  output : last.channel.output.toList = start.channel.output.toList ++ emitted turns
  fed : Feeds start.channel (fed turns) last.channel
  served : transfers trace
    = (turns.zipIdx start.driver.cycles).flatMap fun (turn, time) => turn.transfers time

section Cycle

variable {pins : Device σ} {sampled : Sample} {notes : List Note}
  {rig last : Rig (Recorded PinCall σ)}

/-- The rising half of a cycle samples the pins behind the edge. -/
theorem rise_of_ok (h : rig.rise pins.recorded = ⟨.ok sampled, last, notes⟩) :
    sampled = pins.sample (pins.setClock true rig.device.device)
      ∧ last = ⟨rig.driver,
        rig.device.driveAll pins.driven (risingCalls rig.driver.settleNs), rig.channel⟩
      ∧ entries notes = [] := by
  cases h
  exact ⟨rfl, rfl, entries_messages _⟩

/-- Collecting a byte appends it to the output, and does not fault. It is counted as a write and
traced with address zero, as separate pins show no address. -/
theorem collect_eq (sampled : Sample) (rig : Rig σ) :
    rig.collect sampled
      = ⟨.ok (),
          ⟨{ rig.driver with
              tally :=
                if sampled.outEnable then rig.driver.tally.record .writeIo
                else rig.driver.tally },
            rig.device,
            { rig.channel with
              output :=
                if sampled.outEnable then rig.channel.output.push sampled.outVal
                else rig.channel.output }⟩,
          if sampled.outEnable then
            [.event (.transaction rig.driver.cycles .writeIo 0 sampled.outVal 0)]
          else []⟩ := by
  obtain ⟨⟨settleNs, cycles, tally⟩, device, channel⟩ := rig
  simp only [Rig.collect]
  cases sampled.outEnable <;> rfl

/-- Feeding a byte takes the next one of the input, drives it and traces the read. Without a read
request nothing of this happens, and the byte of the turn is one that nobody sees. -/
theorem feed_of_ok (h : rig.feed pins.recorded sampled = ⟨.ok (), last, notes⟩) :
    ∃ byte, last.driver.settleNs = rig.driver.settleNs ∧ last.driver.cycles = rig.driver.cycles
      ∧ last.device = rig.device.driveAll pins.driven (Turn.served ⟨sampled, byte⟩)
      ∧ last.channel.output = rig.channel.output
      ∧ Feeds rig.channel (fed [⟨sampled, byte⟩]) last.channel
      ∧ transfers (entries notes)
        = if sampled.inReading then [⟨rig.driver.cycles, ⟨.readIo, 0, 0⟩, byte⟩] else [] := by
  have hentries := entries_feed pins.recorded sampled rig
  rw [h] at hentries
  obtain ⟨⟨settleNs, cycles, tally⟩, device, channel⟩ := rig
  simp only [Rig.feed] at h
  -- Without the read request the channel is not touched, and no byte is driven.
  cases hreads : sampled.inReading with
  | false =>
      simp only [hreads, Bool.false_eq_true, if_false] at h
      cases h
      exact ⟨0, rfl, rfl, by simp [Turn.served, hreads]; rfl, rfl,
        by simpa [fed, hreads] using Feeds.nil fun _ => rfl, rfl⟩
  | true =>
      obtain ⟨result, next, lines, hread⟩ : ∃ result next lines,
          channel.read = ⟨result, next, lines⟩ := ⟨_, _, _, rfl⟩
      simp only [hreads, if_true, hread] at h hentries
      cases result with
      | error fault => cases h
      | ok byte =>
          cases h
          refine ⟨byte, rfl, rfl, ?_, ?_, ?_, ?_⟩
          · simp [Turn.served, hreads]
            rfl
          · exact Channel.output_of_read hread
          · simpa [fed, hreads] using Feeds.of_read hread
          · rw [hentries, transfers_transferred]
            rfl

/-- The end of a cycle holds the device, and counts the cycle. -/
theorem finish_of_ok (h : rig.finish pins.recorded = ⟨.ok (), last, notes⟩) :
    last = ⟨{ rig.driver with cycles := rig.driver.cycles + 1 },
        rig.device.driveAll pins.driven [.hold rig.driver.settleNs], rig.channel⟩
      ∧ entries notes = [] := by
  cases h
  exact ⟨rfl, entries_messages _⟩

/-- A cycle that succeeds, from its sample on:

- `settle`: the driver holds the device as long as ever;
- `cycles`: the cycle is counted;
- `device`: the calls of the turn were made;
- `output`: the byte of the sample is appended to the output;
- `fed`: the byte that it asked for is the next one of the input;
- `served`: its transfers are traced. -/
structure Takes (pins : Device σ) (rig : Rig (Recorded PinCall σ)) (turn : Turn)
    (notes : List Note) (last : Rig (Recorded PinCall σ)) : Prop where
  sampled : turn.sample = pins.sample (pins.setClock true rig.device.device)
  settle : last.driver.settleNs = rig.driver.settleNs
  cycles : last.driver.cycles = rig.driver.cycles + 1
  device : last.device = rig.device.driveAll pins.driven (turn.calls rig.driver.settleNs)
  output : last.channel.output.toList = rig.channel.output.toList ++ emitted [turn]
  fed : Feeds rig.channel (fed [turn]) last.channel
  served : transfers (entries notes) = turn.transfers rig.driver.cycles

/-- Every cycle that succeeds takes a turn: a look at the pins, an edge, a byte collected if one was
offered, and a byte fed if one was asked for. -/
theorem exists_takes (h : rig.cycle pins.recorded = ⟨.ok (), last, notes⟩) :
    ∃ turn, Takes pins rig turn notes last := by
  -- The edges, the byte that is collected, the byte that is fed, and the end of the cycle.
  obtain ⟨sampled, risen, first, _, hrise, hserve, rfl⟩ := Step.of_andThen_ok h
  obtain ⟨_, collected, second, _, hcollect, hread, rfl⟩ := Step.of_andThen_ok hserve
  obtain ⟨_, supplied, third, fourth, hfeed, hfinish, rfl⟩ := Step.of_andThen_ok hread
  obtain ⟨hsampled, rfl, hrisen⟩ := rise_of_ok hrise
  rw [collect_eq] at hcollect
  cases hcollect
  obtain ⟨byte, hsettle, hcycles, hdevice, houtput, hfed, hserved⟩ := feed_of_ok hfeed
  obtain ⟨rfl, hfinished⟩ := finish_of_ok hfinish
  refine ⟨⟨sampled, byte⟩, hsampled, hsettle, ?_, ?_, ?_, ?_, ?_⟩
  · simp only [hcycles]
    rfl
  · rw [hdevice, hsettle, Turn.calls, fallingCalls]
    simp only [Recorded.driveAll_append]
    rfl
  · rw [houtput, emitted_singleton]
    cases sampled.outEnable <;> simp [Rig.lower]
  · -- Collecting has left the input alone.
    exact ⟨hfed.given, hfed.left⟩
  · simp only [entries_append, transfers_append, hrisen, hfinished, hserved, Turn.transfers]
    cases sampled.outEnable <;> cases sampled.inReading <;> rfl

end Cycle

/-- A driver that has taken no turn. -/
theorem sampled_recording (pins : Device σ) (start : Rig σ) :
    Sampled pins start [] [] start.recording where
  settle := rfl
  calls := rfl
  device := rfl
  sampled := rfl
  cycles := rfl
  output := (List.append_nil _).symm
  fed := .nil fun _ => rfl
  served := rfl

/-- One more turn behind those that were taken. Every field moves by what the turn has done, and the
two streams by one byte at most. -/
theorem Sampled.takes {pins : Device σ} {start : Rig σ} {turns : List Turn}
    {trace : List TraceEvent} {rig last : Rig (Recorded PinCall σ)} {turn : Turn}
    {notes : List Note} (h : Sampled pins start turns trace rig)
    (htakes : Takes pins rig turn notes last) :
    Sampled pins start (turns ++ [turn]) (trace ++ entries notes) last := by
  have hdevice := htakes.device
  rw [h.settle] at hdevice
  constructor
  case settle => rw [htakes.settle, h.settle]
  case calls =>
    rw [hdevice, Recorded.driveAll_calls, h.calls, List.flatMap_append, List.flatMap_singleton]
  case device =>
    rw [hdevice]
    exact Recorded.replay_driveAll h.device _
  case sampled =>
    rw [hdevice, samples_driveAll _ h.device, h.sampled, samples_calls, ← htakes.sampled,
      List.map_append, List.map_singleton]
  case cycles =>
    rw [htakes.cycles, h.cycles, List.length_append, List.length_singleton]
    rfl
  case output =>
    rw [htakes.output, h.output]
    simp [emitted]
  case fed =>
    rw [fed_append]
    exact h.fed.append htakes.fed
  -- The new turn has the next number, which is the length of the turns before it.
  case served =>
    rw [transfers_append, h.served, htakes.served, h.cycles, List.zipIdx_append,
      List.flatMap_append]
    simp

/-- Every sequence of cycles that succeed is made of turns, one for each. Here no action is half a
cycle, so nothing is ever pending. -/
theorem exists_sampled {pins : Device σ} {start : Rig σ} {history : List (Unit × Unit)}
    {notes : List Note} {last : Rig (Recorded PinCall σ)}
    (h : Reaches (fun _ => Rig.cycle pins.recorded) start.recording history notes last) :
    ∃ turns, turns.length = history.length ∧ Sampled pins start turns (entries notes) last := by
  induction h with
  | refl => exact ⟨[], rfl, sampled_recording pins start⟩
  | snoc _ htaken ih =>
      obtain ⟨turns, hlength, hturns⟩ := ih
      obtain ⟨turn, htakes⟩ := exists_takes htaken
      refine ⟨turns ++ [turn], ?_, ?_⟩
      · rw [List.length_append, List.length_append, hlength]
        rfl
      · rw [entries_append]
        exact hturns.takes htakes

end SeparatePin

end TapeBench
