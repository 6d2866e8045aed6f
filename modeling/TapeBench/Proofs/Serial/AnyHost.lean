import Mathlib.Data.List.Chain
import TapeBench.Proofs.Serial.Protocol
import TapeBench.Proofs.Serial.Pulses

/-!
# `TapeBench.Proofs.Serial.AnyHost`: the chip keeps the protocol in front of any host

Between two resets a host may write any word to the input register, pulse the clock and read the
output register, in any order. It may drop `enable` in the middle of a request, or never lower
`op_done`. The chip does not depend on its good will: whatever it does, the phases that it reads are
those of the protocol as long as it reads one behind every pulse, the bytes spell the request of the
core, and the core takes its edges at two kinds of ticks only.

* `HostCall`, `Chip.behind`, `Chip.frames`: the calls, the chip behind some of them, and the frames
  that were read meanwhile.
* `Effect`: the three things that a call can do to the chip.
* `Chip.edge?`: the value with which a call clocks the core, if it does.
* `Obeys`: what holds of the chip behind some calls, and from there on.
* `chip_obeys`: it holds behind all calls of a host that reads behind every pulse.
-/

set_option autoImplicit false

namespace TapeBench

/-- Every edge of a core that has not stopped takes it to another stage. So whoever sees the core
unchanged knows that it was not clocked. -/
theorem Core.edge_ne {core : Core} (h : core.halted = false) (valIn : UInt8) :
    core.edge valIn ≠ core := by
  obtain ⟨pc, ptr, stage⟩ := core
  intro hkept
  have hstage := congrArg Core.stage hkept
  -- Every edge leads to another kind of stage, so the stage alone tells the two cores apart.
  cases stage with
  | halted => cases h
  | fetch | loadCell _ | readInput | acceptInput | scan _ _ | store _ | emit _ => cases hstage
  | decode =>
      simp only [edge, decode] at hstage
      repeat' split at hstage
      all_goals cases hstage
  | apply wanted =>
      simp only [edge, apply] at hstage
      repeat' split at hstage
      all_goals cases hstage
  | scanDecode direction depth =>
      simp only [edge, scan, walk] at hstage
      repeat' split at hstage
      all_goals cases hstage

namespace Serial

open Bus (Op Request)

/-- What a host may do to the chip between two resets:

- `inputs`: it writes the input register;
- `step`: it pulses the clock;
- `outputs`: it reads the output register. -/
inductive HostCall where
  | inputs (bits : UInt16)
  | step
  | outputs
  deriving DecidableEq

/-- The call is a pulse or a read. -/
def HostCall.isStepOrRead : HostCall → Bool
  | .step | .outputs => true
  | .inputs _ => false

/-- The word that a call writes. -/
def HostCall.written? : HostCall → Option UInt16
  | .inputs bits => some bits
  | .step | .outputs => none

/-- Between two pulses the host reads the output register. -/
def Attentive (calls : List HostCall) : Prop :=
  (calls.filter HostCall.isStepOrRead).IsChain fun first second => first = .step → second ≠ .step

/-- The host has read the output register since the last pulse, if there was one. -/
def UpToDate (calls : List HostCall) : Prop :=
  (calls.filter HostCall.isStepOrRead).getLast? ≠ some .step

/-- Whether a host has read between its pulses can be told from its calls. -/
instance (calls : List HostCall) : Decidable (Attentive calls) :=
  inferInstanceAs (Decidable (List.IsChain _ _))

/-- The frame in a word, if its code stands for a phase. -/
def frame? (word : UInt16) : Option Frame :=
  match Phase.ofState (OutputRegister.ofBits word).state with
  | .error _ => none
  | .ok phase => some ⟨phase, (OutputRegister.ofBits word).busOut⟩

/-- A frame spells its part of a request. An idle frame spells none. -/
def Frame.Spells (frame : Frame) (request : Request) : Prop :=
  match frame.phase with
  | .idle => True
  | .opcode => Op.ofCode frame.byte = request.op
  | .addressHigh => frame.byte = (request.addr >>> 8).toUInt8
  | .addressLow => frame.byte = request.addr.toUInt8
  | .execute => frame.byte = request.value

namespace Chip

/-- The chip behind a call. -/
def after (chip : Chip) : HostCall → Chip
  | .inputs bits => (link.setInputs bits chip).2
  | .step => (link.stepClock chip).2
  | .outputs => (link.getOutputs chip).2

/-- The word that a call reads. -/
def read? (chip : Chip) : HostCall → Option UInt16
  | .inputs _ | .step => none
  | .outputs => (link.getOutputs chip).1.toOption

/-- The chip behind some calls. -/
def behind (chip : Chip) (calls : List HostCall) : Chip :=
  calls.foldl after chip

/-- The words that some calls read. -/
def words : Chip → List HostCall → List UInt16
  | _, [] => []
  | chip, call :: rest => (chip.read? call).toList ++ (chip.after call).words rest

/-- The frames in these words. -/
def frames (chip : Chip) (calls : List HostCall) : List Frame :=
  (chip.words calls).filterMap frame?

/-- The call ends the execution phase. -/
def Leaves (chip : Chip) (call : HostCall) : Prop :=
  chip.phase = .execute ∧ (chip.after call).phase ≠ .execute

/-- The call is a tick of the chip. -/
def Ticks (chip : Chip) (call : HostCall) : Prop :=
  (chip.after call).ticks = chip.ticks + 1

/-- The phases before and behind a call tell whether it ends the execution phase. -/
instance (chip : Chip) (call : HostCall) : Decidable (chip.Leaves call) :=
  inferInstanceAs (Decidable (_ ∧ _))

/-- The tick counter tells whether a call is a tick. -/
instance (chip : Chip) (call : HostCall) : Decidable (chip.Ticks call) :=
  inferInstanceAs (Decidable (_ = _))

/-- No call ends the execution phase. -/
def Stays : Chip → List HostCall → Prop
  | _, [] => True
  | chip, call :: rest => ¬chip.Leaves call ∧ (chip.after call).Stays rest

/-- The value with which a call clocks the core. The core takes an edge if the chip leaves the
execution phase, and at a tick of an idle chip whose core has no request. -/
def edge? (chip : Chip) (call : HostCall) : Option UInt8 :=
  if chip.Leaves call then
    some (if chip.core.request.op.isRead then chip.inputs.busIn else chip.latched)
  else if chip.Ticks call ∧ chip.phase = .idle ∧ chip.core.request.op = .noOp then
    some chip.latched
  else
    none

/-- The values with which some calls clock the core. -/
def edges : Chip → List HostCall → List UInt8
  | _, [] => []
  | chip, call :: rest => (chip.edge? call).toList ++ (chip.after call).edges rest

/-- The chip begins a sequence of calls: it is new, or it was reset and released. -/
def Ready (chip : Chip) : Prop :=
  (∃ divider, chip = withDivider divider)
    ∨ ∃ before, chip = (link.setReset false (link.setReset true before).2).2

/-! ### One call -/

/-- What a call does to the chip:

- `still`: the chip does not tick. The input register or the prescaler may change;
- `moved`: the chip ticks, and shows the next phase;
- `clocked`: the chip ticks, and the core takes an edge. -/
inductive Effect (chip : Chip) : HostCall → Chip → Prop
  | still {call : HostCall} (inputs : InputRegister) (prescale : Nat) :
      Effect chip call { chip with inputs, prescale }
  | moved (hrunning : chip.core.halted = false) (hstays : chip.coreAdvances = false) :
      Effect chip .step
        { chip with phase := nextPhase chip.phase, prescale := 0, ticks := chip.ticks + 1 }
  | clocked (hrunning : chip.core.halted = false) (hadvances : chip.coreAdvances = true) :
      Effect chip .step
        { chip with
          core := chip.core.edge chip.coreInput
          phase := .idle
          latched := chip.coreInput
          prescale := 0
          ticks := chip.ticks + 1 }

/-- Every call has one of the three effects. Writes and reads leave a chip still, and so does a
pulse that the chip takes no notice of or that does not reach the divider. -/
theorem effect_after (chip : Chip) (call : HostCall) : Effect chip call (chip.after call) := by
  cases call with
  | inputs bits => exact .still _ chip.prescale
  | outputs => exact .still chip.inputs chip.prescale
  | step =>
      show Effect chip .step chip.pulse
      -- A pulse is lost on a chip that sleeps, and counted towards the next tick otherwise.
      by_cases hawake : chip.awake = true
      · by_cases hdivider : chip.divider ≤ chip.prescale + 1
        · rw [(pulse_of_le hawake hdivider).1, tick]
          split
          case isTrue hadvances => exact .clocked (running_of_awake hawake) hadvances
          case isFalse hstays =>
            exact .moved (running_of_awake hawake) (Bool.eq_false_iff.mpr hstays)
        · rw [(pulse_of_lt hawake (Nat.not_le.mp hdivider)).1]
          exact .still chip.inputs _
      · have hasleep : chip.pulse = chip := if_neg hawake
        rw [hasleep]
        exact .still chip.inputs chip.prescale

/-- The core takes its edges where `edge?` says, and none otherwise. Calls that only read or write a
register, and pulses between two ticks, leave the core alone. -/
theorem core_after (chip : Chip) (call : HostCall) :
    (chip.after call).core = (chip.edge? call).elim chip.core chip.core.edge := by
  have heffect := chip.effect_after call
  generalize hnext : chip.after call = next at heffect
  cases heffect with
  | still inputs prescale => simp [edge?, Leaves, Ticks, hnext]
  | moved hrunning hstays =>
      -- An idle chip without a request would have clocked its core.
      have hasks : ¬(chip.phase = .idle ∧ chip.core.request.op = .noOp) := by
        intro ⟨hidle, hnone⟩
        simp [coreAdvances, hidle, hnone] at hstays
      have hheld : ¬chip.Leaves .step := by
        intro ⟨hexecute, hleft⟩
        simp [hnext, hexecute, nextPhase] at hleft
      rw [edge?, if_neg hheld, if_neg fun h => hasks h.2]
      rfl
  | clocked hrunning hadvances =>
      cases hphase : chip.phase with
      | execute => simp [edge?, Leaves, hnext, hphase, coreInput]
      | idle =>
          have hnone : chip.core.request.op = .noOp := by
            simpa [coreAdvances, hphase] using hadvances
          simp [edge?, Leaves, Ticks, hnext, hphase, hnone, coreInput]
      | opcode | addressHigh | addressLow => simp [coreAdvances, hphase] at hadvances

/-- The execution phase ends at a tick, with `op_done` up. However long a host leaves it down, the
chip stays in the phase. -/
theorem ticks_of_leaves {chip : Chip} {call : HostCall} (h : chip.Leaves call) :
    chip.Ticks call ∧ chip.inputs.opDone = true := by
  obtain ⟨hexecute, hleft⟩ := h
  have heffect := chip.effect_after call
  simp only [Ticks]
  generalize chip.after call = next at heffect hleft ⊢
  cases heffect with
  | still inputs prescale => exact absurd hexecute hleft
  | moved hrunning hstays =>
      rw [hexecute] at hleft
      exact absurd rfl hleft
  | clocked hrunning hadvances =>
      simp only [coreAdvances, hexecute] at hadvances
      exact ⟨rfl, hadvances⟩

/-- A phase is held by a call, or the next one is entered. No call skips a phase, and none leads
back. -/
theorem phase_after (chip : Chip) (call : HostCall) :
    chip.phase = (chip.after call).phase
      ∨ chip.phase.enters (chip.after call).phase = true := by
  have heffect := chip.effect_after call
  generalize chip.after call = next at heffect ⊢
  cases heffect with
  | still inputs prescale => exact .inl rfl
  | moved hrunning hstays => cases hphase : chip.phase <;> simp [nextPhase, Phase.enters]
  | clocked hrunning hadvances =>
      cases hphase : chip.phase with
      | idle | execute => simp [Phase.enters]
      | opcode | addressHigh | addressLow => simp [coreAdvances, hphase] at hadvances

/-- A chip whose core has stopped does not tick. -/
theorem running_of_ticks {chip : Chip} {call : HostCall} (h : chip.Ticks call) :
    chip.core.halted = false := by
  have heffect := chip.effect_after call
  simp only [Ticks] at h
  generalize chip.after call = next at heffect h
  cases heffect with
  | still inputs prescale => exact absurd h (Nat.ne_of_lt (Nat.lt_succ_self _))
  | moved hrunning hstays => exact hrunning
  | clocked hrunning hadvances => exact hrunning

/-- A core that is clocked has not stopped. -/
theorem running_of_edge? {chip : Chip} {call : HostCall} {value : UInt8}
    (h : chip.edge? call = some value) : chip.core.halted = false := by
  rw [edge?] at h
  split at h
  · rename_i hleaves
    exact running_of_ticks (ticks_of_leaves hleaves).1
  · split at h
    · rename_i hidle
      exact running_of_ticks hidle.1
    · cases h

/-- The core changes with its edges, and with each of them. -/
theorem core_after_ne_iff (chip : Chip) (call : HostCall) :
    (chip.after call).core ≠ chip.core ↔ (chip.edge? call).isSome = true := by
  rw [core_after]
  cases hedge : chip.edge? call with
  | none => simp
  | some value =>
      have hmoved := Core.edge_ne (running_of_edge? hedge) value
      simpa using hmoved

/-- A chip whose core has stopped keeps core and phase, whatever is called. -/
theorem after_of_halted {chip : Chip} (h : chip.core.halted = true) (call : HostCall) :
    (chip.after call).core = chip.core ∧ (chip.after call).phase = chip.phase := by
  have heffect := chip.effect_after call
  generalize chip.after call = next at heffect ⊢
  cases heffect with
  | still inputs prescale => exact ⟨rfl, rfl⟩
  | moved hrunning hstays =>
      rw [h] at hrunning
      cases hrunning
  | clocked hrunning hadvances =>
      rw [h] at hrunning
      cases hrunning

/-- In a pass the core waits until the chip leaves the execution phase, so that what it asks for is
the same from the first phase that spells the request to the one in which it is served. -/
theorem core_of_not_leaves {chip : Chip} {call : HostCall} (hbusy : chip.phase ≠ .idle)
    (hstays : ¬chip.Leaves call) :
    (chip.after call).core = chip.core ∧ (chip.after call).phase ≠ .idle := by
  constructor
  · rw [core_after, edge?, if_neg hstays, if_neg fun h => hbusy h.2.1]
    rfl
  · intro hidle
    rcases chip.phase_after call with hheld | henters
    · exact hbusy (hheld.trans hidle)
    · rw [hidle] at henters
      have hexecute : chip.phase = .execute := by
        cases hphase : chip.phase <;> rw [hphase] at henters <;> first | rfl | cases henters
      exact hstays ⟨hexecute, by rw [hidle]; nofun⟩

/-! ### Many calls -/

/-- Calls may be made in parts. -/
theorem behind_append (chip : Chip) (calls more : List HostCall) :
    chip.behind (calls ++ more) = (chip.behind calls).behind more :=
  List.foldl_append

/-- The words that they read are then those of the parts, one after the other. -/
theorem words_append (chip : Chip) (calls more : List HostCall) :
    chip.words (calls ++ more) = chip.words calls ++ (chip.behind calls).words more := by
  induction calls generalizing chip with
  | nil => rfl
  | cons call rest ih =>
      show _ ++ (chip.after call).words (rest ++ more) = _
      rw [ih, ← List.append_assoc]
      rfl

/-- A read shows the phase of the chip, and its byte. -/
theorem frame?_outputs (chip : Chip) :
    frame? chip.outputs.toBits = some ⟨chip.phase, chip.busOut⟩ := by
  simp [frame?, ofBits_outputs]

/-- One more read is one more frame. -/
theorem frames_append_outputs (chip : Chip) (calls : List HostCall) :
    chip.frames (calls ++ [.outputs])
      = chip.frames calls ++ [⟨(chip.behind calls).phase, (chip.behind calls).busOut⟩] := by
  rw [frames, words_append, List.filterMap_append]
  show _ ++ [(chip.behind calls).outputs.toBits].filterMap frame? = _
  rw [List.filterMap_cons_some (frame?_outputs _)]
  rfl

/-- Any other call is none. -/
theorem frames_append_of_ne (chip : Chip) (calls : List HostCall) {call : HostCall}
    (h : call ≠ .outputs) : chip.frames (calls ++ [call]) = chip.frames calls := by
  have hread : chip.words (calls ++ [call]) = chip.words calls := by
    rw [words_append]
    cases call with
    | outputs => exact absurd rfl h
    | inputs bits | step => exact List.append_nil _
  rw [frames, hread]
  rfl

/-- Every word that is read shows a phase, as the chip puts no other code into its output register.
-/
theorem isSome_of_mem_words {chip : Chip} {calls : List HostCall} {word : UInt16}
    (h : word ∈ chip.words calls) : (frame? word).isSome = true := by
  induction calls generalizing chip with
  | nil => cases h
  | cons call rest ih =>
      rcases List.mem_append.mp h with hfirst | hlater
      · cases call with
        | inputs bits | step => cases hfirst
        | outputs =>
            obtain rfl := List.mem_singleton.mp hfirst
            rw [frame?_outputs]
            rfl
      · exact ih hlater

/-- The core behind some calls has taken their edges, in order. -/
theorem core_behind (chip : Chip) (calls : List HostCall) :
    (chip.behind calls).core = (chip.edges calls).foldl Core.edge chip.core := by
  induction calls generalizing chip with
  | nil => rfl
  | cons call rest ih =>
      show ((chip.after call).behind rest).core = _
      rw [ih, core_after, edges, List.foldl_append]
      cases chip.edge? call <;> rfl

/-- In a pass the core waits until the chip leaves the execution phase, whatever is called. -/
theorem core_of_stays {chip : Chip} {calls : List HostCall} (hbusy : chip.phase ≠ .idle)
    (hstays : chip.Stays calls) : (chip.behind calls).core = chip.core := by
  induction calls generalizing chip with
  | nil => rfl
  | cons call rest ih =>
      obtain ⟨hcore, hphase⟩ := core_of_not_leaves hbusy hstays.1
      exact (ih hphase hstays.2).trans hcore

/-- A chip whose core has stopped shows the same for ever. Its input register may still be written,
and nothing of it is shown. -/
theorem behind_of_halted {chip : Chip} (h : chip.core.halted = true) (calls : List HostCall) :
    (chip.behind calls).core = chip.core ∧ (chip.behind calls).phase = chip.phase
      ∧ (chip.behind calls).outputs = chip.outputs := by
  -- The output register shows the core and the phase, and nothing else of the chip.
  suffices hkept : (chip.behind calls).core = chip.core
      ∧ (chip.behind calls).phase = chip.phase by
    obtain ⟨hcore, hphase⟩ := hkept
    refine ⟨hcore, hphase, ?_⟩
    simp only [outputs, busOut, hcore, hphase]
  induction calls generalizing chip with
  | nil => exact ⟨rfl, rfl⟩
  | cons call rest ih =>
      obtain ⟨hcore, hphase⟩ := after_of_halted h call
      rw [← hcore] at h
      obtain ⟨hlater, hshown⟩ := ih h
      exact ⟨hlater.trans hcore, hshown.trans hphase⟩

/-- A pulse leaves the input register alone, which only the host writes. -/
theorem inputs_pulse (chip : Chip) : chip.pulse.inputs = chip.inputs := by
  simp only [pulse, tick]
  repeat' split
  all_goals rfl

/-- The input register holds the word that was written last, or what it held before if none was
written. -/
theorem inputs_behind (chip : Chip) (calls : List HostCall) :
    (chip.behind calls).inputs
      = (calls.filterMap HostCall.written?).getLast?.elim chip.inputs .ofBits := by
  -- The last write counts, so the calls are taken off at the end.
  induction calls using List.reverseRecOn with
  | nil => rfl
  | append_singleton calls call ih =>
      rw [behind_append, List.filterMap_append, List.getLast?_append]
      cases call with
      | inputs bits => rfl
      | step => exact (inputs_pulse _).trans ih
      | outputs => exact ih

end Chip

/-! ### The frames that are read -/

namespace Chip

/-- The phases that were shown in a pass before this one. -/
def earlier : Phase → List Phase
  | .idle | .opcode => []
  | .addressHigh => [.opcode]
  | .addressLow => [.opcode, .addressHigh]
  | .execute => [.opcode, .addressHigh, .addressLow]

/-- What a host that reads behind every pulse has seen of the chip:

- `accepted`: the phases are those of the protocol;
- `follows`: the phase of the chip is the one that was read last, or the next one;
- `current`: it is the one that was read last unless there was a pulse since, and so is its byte;
- `spelled`: the phases of this pass that are over have spelled the request of the core. -/
structure Watched (start : Chip) (calls : List HostCall) : Prop where
  accepted : Legal .idle ((start.frames calls).map Frame.phase)
  follows : lastPhase (start.frames calls) = (start.behind calls).phase
    ∨ (lastPhase (start.frames calls)).enters (start.behind calls).phase = true
  current : UpToDate calls → lastPhase (start.frames calls) = (start.behind calls).phase
    ∧ lastByte (start.behind calls).phase (start.frames calls) = (start.behind calls).busOut
  spelled : ∀ phase ∈ earlier (start.behind calls).phase,
    lastByte phase (start.frames calls) = busOut { start.behind calls with phase }

/-- A phase that is over is not the phase of the chip. -/
theorem ne_of_mem_earlier {phase last : Phase} (h : phase ∈ earlier last) : last ≠ phase := by
  rintro rfl
  cases last <;> simp [earlier] at h

/-- With a tick at most one phase more is over. -/
theorem mem_earlier_nextPhase {phase last : Phase} (h : phase ∈ earlier (nextPhase last)) :
    phase ∈ earlier last ∨ phase = last := by
  cases last <;> simp_all [earlier, nextPhase, or_assoc]

namespace Watched

variable {start : Chip} {calls : List HostCall}

/-- Nothing was read yet of a chip that is new, or was reset and released. Its phase is idle, and
that is where a host begins too. -/
theorem new (hstart : start.Ready) : Watched start [] := by
  have hidle : start.phase = .idle := by
    rcases hstart with ⟨divider, rfl⟩ | ⟨before, rfl⟩ <;> rfl
  have hbyte : start.busOut = 0 := by simp only [busOut, hidle]
  exact
    { accepted := trivial
      follows := .inl hidle.symm
      current := fun _ => ⟨hidle.symm, hbyte.symm⟩
      spelled := by
        intro phase hphase
        rw [show start.behind [] = start from rfl, hidle] at hphase
        cases hphase }

/-- One more read. It sees the phase of the chip and the byte that goes with it, so that both are up
to date until the next pulse. -/
theorem read (h : Watched start calls) : Watched start (calls ++ [.outputs]) := by
  have hbehind : start.behind (calls ++ [.outputs]) = start.behind calls := behind_append _ _ _
  have hframes := frames_append_outputs start calls
  -- A read of the outputs moves nothing. It adds one frame, which shows the phase the chip is in.
  constructor
  case accepted =>
    rw [hframes, List.map_append, List.map_singleton, legal_append_singleton]
    exact ⟨h.accepted, h.follows⟩
  case follows =>
    rw [hframes, hbehind, lastPhase_append]
    exact .inl rfl
  case current =>
    intro _
    rw [hframes, hbehind, lastPhase_append, lastByte_append, if_pos rfl]
    exact ⟨rfl, rfl⟩
  case spelled =>
    rw [hframes, hbehind]
    intro phase hphase
    rw [lastByte_append, if_neg (ne_of_mem_earlier hphase)]
    exact h.spelled phase hphase

/-- One more write. It changes nothing that can be read, so everything that was seen is still the
latest. -/
theorem wrote (h : Watched start calls) (bits : UInt16) :
    Watched start (calls ++ [.inputs bits]) := by
  have hbehind : start.behind (calls ++ [.inputs bits])
      = { start.behind calls with inputs := .ofBits bits } := behind_append _ _ _
  have hframes : start.frames (calls ++ [.inputs bits]) = start.frames calls :=
    frames_append_of_ne start calls nofun
  have hread : UpToDate (calls ++ [.inputs bits]) ↔ UpToDate calls := by
    simp [UpToDate, HostCall.isStepOrRead]
  -- A write of the inputs adds no frame, and each field is the field from before.
  constructor
  case accepted =>
    rw [hframes]
    exact h.accepted
  case follows =>
    rw [hframes, hbehind]
    exact h.follows
  case current =>
    rw [hframes, hbehind, hread]
    exact h.current
  case spelled =>
    rw [hframes, hbehind]
    exact h.spelled

/-- One more pulse, if the host has read since the one before. At most one phase more is over then,
and that read has seen it with its byte. -/
theorem pulsed (h : Watched start calls) (hread : UpToDate calls) :
    Watched start (calls ++ [.step]) := by
  have hbehind : start.behind (calls ++ [.step]) = (start.behind calls).after .step :=
    behind_append _ _ _
  have hframes : start.frames (calls ++ [.step]) = start.frames calls :=
    frames_append_of_ne start calls nofun
  obtain ⟨hlast, hbyte⟩ := h.current hread
  constructor
  case accepted =>
    rw [hframes]
    exact h.accepted
  case follows =>
    rw [hframes, hbehind, hlast]
    exact phase_after _ _
  case current =>
    intro hbefore
    simp [UpToDate, HostCall.isStepOrRead] at hbefore
  case spelled =>
    rw [hframes, hbehind]
    have heffect := (start.behind calls).effect_after .step
    generalize (start.behind calls).after .step = next at heffect ⊢
    intro phase hphase
    cases heffect with
    | still inputs prescale => exact h.spelled phase hphase
    | moved hrunning hstays =>
        -- The phase that is over now was read last.
        rcases mem_earlier_nextPhase hphase with hover | rfl
        · exact h.spelled phase hover
        · exact hbyte
    | clocked hrunning hadvances => cases hphase

end Watched

/-- A host that reads behind every pulse has seen the chip keep the protocol. By induction on the
calls from the end, with one lemma for each call. -/
theorem watched_of_attentive {start : Chip} (hstart : start.Ready) {calls : List HostCall}
    (h : Attentive calls) : Watched start calls := by
  -- The calls are taken off at the end, where a pulse asks for a read behind the one before.
  induction calls using List.reverseRecOn with
  | nil => exact .new hstart
  | append_singleton calls call ih =>
      rw [Attentive, List.filter_append, List.isChain_append] at h
      obtain ⟨hbefore, -, hlast⟩ := h
      cases call with
      | inputs bits => exact (ih hbefore).wrote bits
      | outputs => exact (ih hbefore).read
      | step =>
          refine (ih hbefore).pulsed ?_
          intro hstep
          exact hlast .step hstep .step rfl rfl rfl

end Chip

/-- Each phase of a sequence of the protocol is one that a host accepts behind the one before, as
held or as entered. -/
theorem Legal.isChain {last : Phase} {phases : List Phase} (h : Legal last phases) :
    (last :: phases).IsChain fun phase next => ∃ transition,
      phase.observe next = .ok transition := by
  induction phases generalizing last with
  | nil => exact .singleton last
  | cons next rest ih =>
      obtain ⟨hnext, hrest⟩ := h
      refine .cons_cons ?_ (ih hrest)
      by_cases hheld : last = next
      · exact ⟨.held, if_pos hheld⟩
      · have henters := hnext.resolve_left hheld
        exact ⟨.entered, by rw [Phase.observe, if_neg hheld, if_pos henters]⟩

/-- What holds of a chip behind some calls, and from there on:

- `known`: every word that was read has the code of a phase;
- `accepted`: a host accepts these phases, one behind the other and from an idle link;
- `shown`: a read shows the phase of the chip, and the byte spells the request of the core;
- `spelled`: in the execution phase the frames of the pass have spelled all of it;
- `held`: from the operation code on, the core waits until the execution phase ends;
- `inputs`: the input register holds the word that was written last;
- `leaves`: the execution phase ends only at a tick with `op_done` up;
- `clocked`: the core takes one edge where `edge?` says, and no other;
- `changes`: the core changes there, and nowhere else;
- `edges`: the core has taken the edges of the calls, in order;
- `stopped`: behind the halt no call changes the core, the phase or the output register. -/
structure Chip.Obeys (start : Chip) (calls : List HostCall) : Prop where
  known : ∀ word ∈ start.words calls, (frame? word).isSome = true
  accepted : (Phase.idle :: (start.frames calls).map Frame.phase).IsChain fun phase next =>
    ∃ transition, phase.observe next = .ok transition
  shown : ∃ word frame, (start.behind calls).read? .outputs = some word ∧ frame? word = some frame
    ∧ frame.phase = (start.behind calls).phase ∧ frame.Spells (start.behind calls).core.request
  spelled : (start.behind calls).phase = .execute →
    requestAfter (start.frames calls) (start.behind calls).busOut
      = (start.behind calls).core.request
  held : (start.behind calls).phase = .opcode → ∀ more, (start.behind calls).Stays more →
    (start.behind (calls ++ more)).core = (start.behind calls).core
  inputs : (start.behind calls).inputs
    = (calls.filterMap HostCall.written?).getLast?.elim start.inputs .ofBits
  leaves : ∀ call, (start.behind calls).Leaves call →
    (start.behind calls).Ticks call ∧ (start.behind calls).inputs.opDone = true
  clocked : ∀ call, (start.behind (calls ++ [call])).core
    = ((start.behind calls).edge? call).elim (start.behind calls).core
      (start.behind calls).core.edge
  changes : ∀ call, (start.behind (calls ++ [call])).core ≠ (start.behind calls).core
    ↔ ((start.behind calls).edge? call).isSome = true
  edges : (start.behind calls).core = (start.edges calls).foldl Core.edge start.core
  stopped : (start.behind calls).core.halted = true → ∀ more,
    (start.behind (calls ++ more)).core = (start.behind calls).core
      ∧ (start.behind (calls ++ more)).phase = (start.behind calls).phase
      ∧ (start.behind (calls ++ more)).outputs = (start.behind calls).outputs

/-- The chip keeps the protocol in front of any host that reads behind every pulse, whatever words
the host writes and at whatever times. A host that pulses twice without a read may miss a phase, and
then the phases that it has read need not follow each other. -/
theorem chip_obeys {start : Chip} (hstart : start.Ready) {calls : List HostCall}
    (hcalls : Attentive calls) : start.Obeys calls := by
  have hwatched := Chip.watched_of_attentive hstart hcalls
  constructor
  case known => exact fun _ hword => Chip.isSome_of_mem_words hword
  case accepted => exact hwatched.accepted.isChain
  case shown =>
    refine ⟨_, _, rfl, Chip.frame?_outputs _, rfl, ?_⟩
    simp only [Frame.Spells, Chip.busOut]
    cases (start.behind calls).phase <;> simp
  case spelled =>
    intro hexecute
    have hspelled := hwatched.spelled
    rw [hexecute] at hspelled
    have hopcode := hspelled .opcode (by decide)
    have hhigh := hspelled .addressHigh (by decide)
    have hlow := hspelled .addressLow (by decide)
    simp only [requestAfter, hopcode, hhigh, hlow, Chip.busOut, hexecute, Op.ofCode_code,
      addr_of_bytes]
  -- Behind the opcode phase only the way out of a pass moves the core, and `hstays` rules it out.
  case held =>
    intro hopcode more hstays
    rw [Chip.behind_append]
    exact Chip.core_of_stays (by rw [hopcode]; nofun) hstays
  case inputs => exact Chip.inputs_behind start calls
  case leaves => exact fun call hleaves => Chip.ticks_of_leaves hleaves
  case clocked =>
    intro call
    rw [Chip.behind_append]
    exact Chip.core_after _ call
  case changes =>
    intro call
    rw [Chip.behind_append]
    exact Chip.core_after_ne_iff _ call
  case edges => exact Chip.core_behind start calls
  case stopped =>
    intro hhalted more
    rw [Chip.behind_append]
    exact Chip.behind_of_halted hhalted more

/-- A host that never lowers `op_done`, and drops `enable` for a pulse while the operation code is
shown. -/
def hasty : List HostCall :=
  [.inputs 0x32B, .outputs] ++ (List.replicate 3 [HostCall.step, .outputs]).flatten
    ++ [.inputs 0x12B, .step, .outputs, .inputs 0x32B]
    ++ (List.replicate 9 [HostCall.step, .outputs]).flatten

/-- The chip fetches a `+` and has it decoded, one tick in two pulses. The pulse without `enable`
is lost. -/
theorem chip_obeys_hasty :
    (Chip.withDivider 2).Ready ∧ Attentive hasty ∧ (Chip.withDivider 2).Obeys hasty
      ∧ (Chip.withDivider 2).edges hasty = [43, 43]
      ∧ ((Chip.withDivider 2).behind hasty).core.stage = .loadCell .increment
      ∧ ((Chip.withDivider 2).frames hasty).map Frame.phase
        = [.idle, .idle, .opcode, .opcode, .opcode, .addressHigh, .addressHigh, .addressLow,
          .addressLow, .execute, .execute, .idle, .idle, .idle] := by
  have hready : (Chip.withDivider 2).Ready := .inl ⟨2, rfl⟩
  have hattentive : Attentive hasty := by decide
  refine ⟨hready, hattentive, chip_obeys hready hattentive, ?_, ?_, ?_⟩
  · decide
  · decide
  · decide

end Serial

end TapeBench
