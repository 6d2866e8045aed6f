import TapeBench.Proofs.Verdict

/-!
# `TapeBench.Proofs.Stream.Tracks`: actions on an input and on a longer one

A run takes its input byte by byte and cannot ask how much of it is left. So two runs that differ in
their input alone go the same way as long as one input goes on where the other one ends, and the
policy of the shorter one decides how it may go on: a policy that gives a byte has to be matched by
copies of that byte, while a run that faults at the end was served the same bytes before.

The shorter run is followed step by step. Its state and the state of the longer run agree in
everything but the input that is left (`Channel.Continues`), and its steps either do what those of
the longer run do, or fault at the end of the input (`Step.Tracks`). The loop over the cycles of an
encoding carries this to the verdicts (`Tracked`).

* `Channel.Continues`, `Peripheral.Continues`: the input of one store continues that of another one.
* `Step.Tracks`, `Stop.Tracks`, `Tracked`: steps, loops and verdicts that agree up to the end.
* `Channel.Continues.read`, `Peripheral.Continues.resolve`: what the stores serve.
* `Clocking.run_tracked`: a run tracks another one if its cycles do.
-/

set_option autoImplicit false

namespace TapeBench

open Bus (Request)
open Memory (Rom Ram)

variable {σ S T U V α β : Type} {policy : Exhaustion} {size : Nat}

/-! ### Stores -/

/-- The input of `long` goes on where that of `short` ends, which had `size` bytes under `policy`:

- `onExhausted`: the policy of the shorter input;
- `length`: what was read of the shorter input and what is left of it make up the whole;
- `output`: both have the same output;
- `input`: a byte that the policy gives is the only byte that the longer input goes on with. -/
structure Channel.Continues (policy : Exhaustion) (size : Nat) (short long : Channel) : Prop where
  onExhausted : short.onExhausted = policy
  length : short.consumed + short.input.length = size
  output : long.output = short.output
  input : ∃ tail, long.input = short.input ++ tail ∧ ∀ byte, policy = .returnByte byte →
    long.onExhausted = .returnByte byte ∧ ∀ extra ∈ tail, extra = byte

/-- Stores that agree in everything but their channels, of which the second continues the first. -/
inductive Peripheral.Continues (policy : Exhaustion) (size : Nat) : Peripheral → Peripheral → Prop
  | stores {program : Rom} {data : Ram} {tally : Tally} {short long : Channel}
      (channel : short.Continues policy size long) :
      Continues policy size ⟨program, data, short, tally⟩ ⟨program, data, long, tally⟩

/-! ### Steps, loops and verdicts -/

/-- The second action does what the first one does, up to the end of the first one's input:

- `done`: both give the same value and leave related states;
- `failed`: both stop with the same fault, which is not about the input;
- `starved`: the first one reads past its `size` bytes, and nothing stands in for them. -/
inductive Step.Tracks (policy : Exhaustion) (size : Nat) (related : S → T → Prop) :
    Step S α → Step T α → Prop
  | done {value : α} {state : S} {other : T} {notes more : List Note}
      (agree : related state other) :
      Tracks policy size related ⟨.ok value, state, notes⟩ ⟨.ok value, other, more⟩
  | failed {fault : Fault} {state : S} {other : T} {notes more : List Note}
      (fed : ∀ consumed, fault ≠ .inputExhausted consumed) :
      Tracks policy size related ⟨.error fault, state, notes⟩ ⟨.error fault, other, more⟩
  | starved {state : S} {notes : List Note} {second : Step T α} (bare : policy = .fail) :
      Tracks policy size related ⟨.error (.inputExhausted size), state, notes⟩ second

/-- The second loop ends as the first one does, up to the end of the first one's input. -/
inductive Stop.Tracks (policy : Exhaustion) (size : Nat) (related : S → T → Prop) :
    Stop × S × Journal → Stop × T × Journal → Prop
  | halted {state : S} {other : T} {journal second : Journal} (agree : related state other) :
      Tracks policy size related (.halted, state, journal) (.halted, other, second)
  | exhausted {state : S} {other : T} {journal second : Journal} (agree : related state other) :
      Tracks policy size related (.exhausted, state, journal) (.exhausted, other, second)
  | faulted {fault : Fault} {state : S} {other : T} {journal second : Journal}
      (fed : ∀ consumed, fault ≠ .inputExhausted consumed) :
      Tracks policy size related (.faulted fault, state, journal) (.faulted fault, other, second)
  | starved {state : S} {journal : Journal} {ended : Stop × T × Journal} (bare : policy = .fail) :
      Tracks policy size related (.faulted (.inputExhausted size), state, journal) ended

/-- The second verdict is the first one, unless that one is about the end of the input. -/
inductive Tracked (policy : Exhaustion) (size : Nat) : Verdict → Verdict → Prop
  | same {verdict : Verdict} (fed : ∀ consumed, verdict ≠ .error (.inputExhausted consumed)) :
      Tracked policy size verdict verdict
  | starved {verdict : Verdict} (bare : policy = .fail) :
      Tracked policy size (.error (.inputExhausted size)) verdict

namespace Tracked

variable {first second : Verdict} {consumed : Nat}

/-- A run that does not fault at the end of its input is matched. -/
theorem eq_of_fed (h : Tracked policy size first second)
    (hfed : ∀ consumed, first ≠ .error (.inputExhausted consumed)) : second = first := by
  cases h with
  | same => rfl
  | starved bare => exact absurd rfl (hfed size)

/-- Where the policy gives a byte, no run faults at the end of its input. -/
theorem fed_of_returnByte {byte : UInt8} (h : Tracked policy size first second)
    (hpolicy : policy = .returnByte byte) (consumed : Nat) :
    first ≠ .error (.inputExhausted consumed) := by
  cases h with
  | same fed => exact fed consumed
  | starved bare => rw [hpolicy] at bare; cases bare

/-- A run that faults at the end of its input has read all of it. -/
theorem consumed_eq (h : Tracked policy size first second)
    (hfirst : first = .error (.inputExhausted consumed)) : consumed = size := by
  cases h with
  | same fed => exact absurd hfirst (fed consumed)
  | starved bare => cases hfirst; rfl

end Tracked

namespace Step.Tracks

variable {related : S → T → Prop}

/-- Two sequences of actions track each other if their parts do. Once the first part has failed in
either of them the second one is not begun, so nothing has to be said about it. -/
theorem andThen {first : Step S α} {second : Step T α} {next : α → S → Step S β}
    {other : α → T → Step T β} {after : S → T → Prop} (h : Tracks policy size related first second)
    (hnext : ∀ value state twin, related state twin →
      Tracks policy size after (next value state) (other value twin)) :
    Tracks policy size after (first.andThen next) (second.andThen other) := by
  cases h with
  | @done value state twin _ _ agree =>
      have hrest := hnext value state twin agree
      simp only [Step.andThen]
      generalize next value state = rest at hrest
      generalize other value twin = mirrored at hrest
      cases hrest with
      | done agree => exact .done agree
      | failed fed => exact .failed fed
      | starved bare => exact .starved bare
  | failed fed => exact .failed fed
  | starved bare => exact .starved bare

/-- The states of two actions may be seen as parts of larger ones. -/
theorem within {first : Step S α} {second : Step T α} {embed : S → U} {place : T → V}
    {after : U → V → Prop} (h : Tracks policy size related first second)
    (hembed : ∀ state twin, related state twin → after (embed state) (place twin)) :
    Tracks policy size after (first.within embed) (second.within place) := by
  cases h with
  | done agree => exact .done (hembed _ _ agree)
  | failed fed => exact .failed fed
  | starved bare => exact .starved bare

end Step.Tracks

/-- Loops over cycles that track each other end alike, under the same budget. The second loop is
left alone once the first one has starved. -/
theorem cyclesUntilHalted_tracks {related : S → T → Prop} {halted : S → Bool} {stopped : T → Bool}
    {cycle : S → Step S Unit} {turn : T → Step T Unit}
    (hhalted : ∀ state twin, related state twin → stopped twin = halted state)
    (hcycle : ∀ state twin, related state twin →
      Step.Tracks policy size related (cycle state) (turn twin)) (budget : Nat) :
    ∀ (state : S) (twin : T) (journal second : Journal), related state twin →
      Stop.Tracks policy size related (cyclesUntilHalted halted cycle budget state journal)
        (cyclesUntilHalted stopped turn budget twin second) := by
  -- Induction on the budget: the halts are seen together, and so is the end of the budget.
  induction budget with
  | zero =>
      intro state twin journal second h
      simp only [cyclesUntilHalted, hhalted state twin h]
      split
      · exact .halted h
      · exact .exhausted h
  | succ budget ih =>
      intro state twin journal second h
      have htaken := hcycle state twin h
      simp only [cyclesUntilHalted, hhalted state twin h]
      split
      · exact .halted h
      · generalize cycle state = taken at htaken
        generalize turn twin = mirrored at htaken
        cases htaken with
        | done agree => exact ih _ _ _ _ agree
        | failed fed => exact .faulted fed
        | starved bare => exact .starved bare

/-- Runs that reach a halt with the same count, output and tally are graded alike. -/
theorem Case.conclude_tracked {case other : Case} (hexpected : other.expected = case.expected)
    (cycles : Nat) (output : Bytes) (tally : Tally) (device twin : σ) (journal second : Journal) :
    Tracked policy size (case.conclude cycles output tally device journal).verdict
      (other.conclude cycles output tally twin second).verdict := by
  simp only [Case.conclude, Case.grade, hexpected]
  split
  · exact .same (by simp)
  · exact .same (by simp)

/-- Over an encoding whose cycles track each other, so do runs. `hseen` says that a report reads the
same from related states. -/
theorem Clocking.run_tracked {clocking : Clocking σ S} (related : S → S → Prop)
    (hhalted : ∀ state twin, related state twin → clocking.halted twin = clocking.halted state)
    (hcycle : ∀ state twin, related state twin →
      Step.Tracks policy size related (clocking.cycle state) (clocking.cycle twin))
    (hseen : ∀ state twin, related state twin → clocking.cycles twin = clocking.cycles state
      ∧ clocking.output twin = clocking.output state ∧ clocking.tally twin = clocking.tally state)
    {case other : Case} (hexpected : other.expected = case.expected) (budget : Nat)
    {start twin : S} (h : related start twin) (journal second : Journal) :
    Tracked policy size (clocking.run case budget start journal).verdict
      (clocking.run other budget twin second).verdict := by
  have hended := cyclesUntilHalted_tracks hhalted hcycle budget start twin journal second h
  simp only [Clocking.run, hhalted start twin h]
  split
  · exact .same (by simp)
  · generalize cyclesUntilHalted _ _ budget start journal = ended at hended
    generalize cyclesUntilHalted _ _ budget twin second = mirrored at hended
    -- The two loops have stopped alike, or the first one has starved and nothing is asked.
    cases hended with
    | @halted state twin journal second agree =>
        obtain ⟨hcycles, houtput, htally⟩ := hseen state twin agree
        simp only [hcycles, houtput, htally]
        exact Case.conclude_tracked hexpected _ _ _ _ _ _ _
    | @exhausted state twin journal second agree =>
        simp only [(hseen state twin agree).1]
        exact .same (by simp)
    | faulted fed => exact .same (by simpa using fed)
    | starved bare => exact .starved bare

/-! ### What the stores serve -/

/-- Both inputs give the same byte, up to the end of the shorter one. From there on the policy
stands in for it: either it gives the byte that the longer input goes on with, or the read of the
shorter one fails. -/
theorem Channel.Continues.read {short long : Channel} (h : Continues policy size short long) :
    Step.Tracks policy size (Continues policy size) short.read long.read := by
  obtain ⟨input, consumed, output, onExhausted⟩ := short
  obtain ⟨continued, taken, written, further⟩ := long
  obtain ⟨rfl, rfl, houtput, tail, hinput, htail⟩ := h
  simp only at hinput houtput htail
  subst hinput houtput
  cases input with
  | cons byte rest =>
      exact .done ⟨rfl, by simp only [List.length_cons]; omega, rfl, tail, rfl, htail⟩
  | nil =>
      cases onExhausted with
      | fail => exact .starved rfl
      | returnByte byte =>
          obtain ⟨rfl, hcopies⟩ := htail byte rfl
          cases tail with
          | nil => exact .done ⟨rfl, rfl, rfl, [], rfl, htail⟩
          | cons extra rest =>
              -- The longer input still has a byte, and it is the one that the policy gives.
              obtain rfl : extra = byte := hcopies extra List.mem_cons_self
              exact .done ⟨rfl, rfl, rfl, rest, rfl, fun given hgiven =>
                ⟨(htail given hgiven).1, fun more hmore =>
                  (htail given hgiven).2 more (List.mem_cons_of_mem _ hmore)⟩⟩

/-- A write does not touch the input. -/
theorem Channel.Continues.write {short long : Channel} (h : Continues policy size short long)
    (byte : UInt8) : Continues policy size (short.write byte) (long.write byte) := by
  obtain ⟨honExhausted, hlength, houtput, hinput⟩ := h
  exact ⟨honExhausted, hlength, by simp only [Channel.write, houtput], hinput⟩

/-- Stores with one input continuing the other answer a request alike, up to the end of the shorter
input. The memories are equal, and the channels differ in the input that is left and in nothing that
was written. -/
theorem Peripheral.Continues.resolve {short long : Peripheral}
    (h : Continues policy size short long) (request : Request) :
    Step.Tracks policy size (Continues policy size) (short.resolve request)
      (long.resolve request) := by
  obtain @⟨program, data, tally, channel, continued, hchannel⟩ := h
  obtain ⟨op, addr, value⟩ := request
  -- Of the operations only a read looks at the input.
  cases op with
  | noOp | readProgram | readData | writeData => exact .done (.stores hchannel)
  | writeIo => exact .done (.stores (hchannel.write value))
  | readIo =>
      have hread := hchannel.read
      simp only [Peripheral.resolve]
      generalize channel.read = given at hread
      generalize continued.read = mirrored at hread
      cases hread with
      | done agree => exact .done (.stores agree)
      | failed fed => exact .failed fed
      | starved bare => exact .starved bare

end TapeBench
