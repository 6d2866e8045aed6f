import TapeBench.Memory.Rom
import TapeBench.Step

/-!
# `TapeBench.Channel`: the input and the output of a run

Input is taken front to back; output is collected in the order of the writes. What a read past
the end of the input gives is decided by a policy: the run fails, or a fixed byte is returned as
often as it is asked for.

* `Exhaustion`: the policy, with the defaults of the encodings.
* `Channel`: both streams, with `Channel.read` and `Channel.write`.
-/

set_option autoImplicit false

namespace TapeBench

/-- What a read past the end of the input gives:

- `fail`: the run ends with a fault;
- `returnByte`: the read gives `byte`. -/
inductive Exhaustion where
  | fail
  | returnByte (byte : UInt8)
  deriving DecidableEq

namespace Exhaustion

/-- Runs over the addressed bus and over the serial link fail at the end of the input. -/
def addressed : Exhaustion := fail

/-- Runs over separate pins read zeros behind the end of the input. -/
def separatePin : Exhaustion := returnByte 0

/-- A policy that is not given fails at the end of the input. -/
instance : Inhabited Exhaustion := ⟨fail⟩

end Exhaustion

/-- The streams of one run:

- `input`: input that was not read yet;
- `consumed`: number of input bytes read so far;
- `output`: output written so far;
- `onExhausted`: what a read past the end gives. -/
structure Channel where
  input : List UInt8 := []
  consumed : Nat := 0
  output : Bytes := #[]
  onExhausted : Exhaustion := .fail
  deriving DecidableEq

namespace Channel

/-- A channel from which nothing was read and to which nothing was written. -/
def ofInput (input : Bytes) (onExhausted : Exhaustion) : Channel where
  input := input.toList
  onExhausted := onExhausted

/-- Takes the next input byte, or what the policy gives for it. -/
def read (channel : Channel) : Step Channel UInt8 :=
  match channel with
  | ⟨byte :: rest, consumed, output, onExhausted⟩ =>
    .done byte ⟨rest, consumed + 1, output, onExhausted⟩ []
  | ⟨[], consumed, output, .returnByte byte⟩ =>
    .done byte ⟨[], consumed, output, .returnByte byte⟩ [.message (.inputSubstituted byte)]
  | ⟨[], consumed, output, .fail⟩ =>
    .fail (.inputExhausted consumed) ⟨[], consumed, output, .fail⟩

/-- Appends a byte to the output. -/
def write (channel : Channel) (byte : UInt8) : Channel :=
  match channel with
  | ⟨input, consumed, output, onExhausted⟩ => ⟨input, consumed, output.push byte, onExhausted⟩

/-- Number of input bytes that were not read yet. -/
def remaining (channel : Channel) : Nat :=
  channel.input.length

/-- The next read is served by the fallback byte. -/
def fallsBack (channel : Channel) : Bool :=
  match channel.input, channel.onExhausted with
  | [], .returnByte _ => true
  | _, _ => false

end Channel

end TapeBench
