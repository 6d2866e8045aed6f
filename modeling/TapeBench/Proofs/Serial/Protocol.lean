import TapeBench.Proofs.Serial.Grammar
import TapeBench.Proofs.Serial.Observations
import TapeBench.Serial.Chip

/-!
# `TapeBench.Proofs.Serial.Protocol`: the host accepts the phase grammar and nothing else

Whatever words a host reads, it goes on exactly as long as their phases are a prefix of a word of
the phase grammar. The requests that reach the stores meanwhile can be told from the frames alone,
without the latches of the host: there is one for each run of execution frames, at the first frame
of the run, and it is made of the last bytes that were shown before.

* `Frame`, `Shows`: a word in which a device that runs shows a byte in a phase.
* `executions`: the requests in a sequence of frames, each with its position.
* `Seen`: what a host remembers of the frames that it has seen.
* `pollAll_cases`: every sequence of words is seen to its end, or up to the first word that is
  refused or whose request cannot be served.
* `pollAll_grammar`: the host accepts exactly the grammar, and serves exactly the executions.
-/

set_option autoImplicit false

namespace TapeBench.Serial

open Bus (Op Request)

/-- A byte shown in a phase. -/
structure Frame where
  phase : Phase
  byte : UInt8
  deriving DecidableEq

/-- The output register of a running device that shows a frame. -/
def Frame.register (frame : Frame) : OutputRegister :=
  ⟨frame.byte, frame.phase.state, false⟩

/-- The words show the frames, one each. -/
def Shows (words : List UInt16) (frames : List Frame) : Prop :=
  words.map OutputRegister.ofBits = frames.map Frame.register

/-- The phase of the last frame. Before the first frame the link is idle. -/
def lastPhase (frames : List Frame) : Phase :=
  (frames.map Frame.phase).getLastD .idle

/-- The byte of the last frame in `phase`, or zero if there is none. -/
def lastByte (phase : Phase) (frames : List Frame) : UInt8 :=
  ((frames.filter fun frame => frame.phase = phase).map Frame.byte).getLastD 0

/-- The request that is spelled out by the frames before its execution. -/
def requestAfter (frames : List Frame) (value : UInt8) : Request :=
  ⟨.ofCode (lastByte .opcode frames),
    (lastByte .addressHigh frames).toUInt16 <<< 8 ||| (lastByte .addressLow frames).toUInt16, value⟩

/-- The requests that are executed by `frames` behind others: one at the first frame of each run of
execution frames, with the number of frames before it. -/
def executionsAfter (before : List Frame) : List Frame → List (Nat × Request)
  | [] => []
  | frame :: rest =>
    (if frame.phase = .execute ∧ lastPhase before ≠ .execute then
      [(before.length, requestAfter before frame.byte)]
    else
      []) ++ executionsAfter (before ++ [frame]) rest

/-- The requests in a sequence of frames, each with its position. -/
def executions (frames : List Frame) : List (Nat × Request) :=
  executionsAfter [] frames

/-- Serves one request, and notes the transaction under the given time. -/
def serve (time : Nat) (request : Request) (bus : Peripheral) : Step Peripheral Unit :=
  match bus.resolve request with
  | ⟨.error fault, next, notes⟩ => ⟨.error fault, next, notes⟩
  | ⟨.ok value, next, notes⟩ => .done () next (transferNotes bus request time notes value)

/-- Serves requests one after the other. -/
def serveAll : List (Nat × Request) → Peripheral → Step Peripheral Unit
  | [], bus => .done () bus []
  | (time, request) :: rest, bus => (serve time request bus).andThen fun _ bus => serveAll rest bus

/-! ### Frames -/

/-- The last phase is that of the last frame. -/
@[simp] theorem lastPhase_append (frames : List Frame) (frame : Frame) :
    lastPhase (frames ++ [frame]) = frame.phase := by
  simp [lastPhase, List.getLastD_eq_getLast?]

/-- One more frame shows the last byte of its phase. -/
theorem lastByte_append (phase : Phase) (frames : List Frame) (frame : Frame) :
    lastByte phase (frames ++ [frame])
      = if frame.phase = phase then frame.byte else lastByte phase frames := by
  by_cases h : frame.phase = phase <;> simp [lastByte, List.getLastD_eq_getLast?, h]

/-- Frames may be gone over in parts. -/
theorem executionsAfter_append (before frames more : List Frame) :
    executionsAfter before (frames ++ more)
      = executionsAfter before frames ++ executionsAfter (before ++ frames) more := by
  induction frames generalizing before with
  | nil => simp [executionsAfter]
  | cons frame rest ih => simp [executionsAfter, ih]

/-- One more frame executes one request, or none. -/
theorem executions_append (frames : List Frame) (frame : Frame) :
    executions (frames ++ [frame])
      = executions frames
        ++ if frame.phase = .execute ∧ lastPhase frames ≠ .execute then
            [(frames.length, requestAfter frames frame.byte)]
          else
            [] := by
  simp [executions, executionsAfter_append, executionsAfter]

/-- Requests may be served in parts. -/
theorem serveAll_append (requests more : List (Nat × Request)) (bus : Peripheral) :
    serveAll (requests ++ more) bus
      = (serveAll requests bus).andThen fun _ bus => serveAll more bus := by
  induction requests generalizing bus with
  | nil => simp [serveAll, Step.andThen_done]
  | cons entry rest ih =>
      rw [List.cons_append, serveAll, serveAll, Step.andThen_assoc]
      congr 1
      funext _ next
      exact ih next

/-! ### What the host remembers -/

/-- What a host remembers of the frames it has seen, in front of stores that were `bus` before the
first of them:

- `phase`: the last phase;
- `opcode`: the last operation code;
- `addrHigh`: the last high byte of an address;
- `addrLow`: the last low byte of an address;
- `steps`: the clock was pulsed once for each frame;
- `commits`: each execution was served once;
- `served`: the stores have served the executions, and the trace says so. -/
structure Seen (bus : Peripheral) (frames : List Frame) (trace : List TraceEvent) (host : Host)
    (after : Peripheral) : Prop where
  phase : host.phase = lastPhase frames
  opcode : host.opcode = lastByte .opcode frames
  addrHigh : host.addrHigh = lastByte .addressHigh frames
  addrLow : host.addrLow = lastByte .addressLow frames
  steps : host.steps = frames.length
  commits : host.commits = (executions frames).length
  served : ∃ notes, serveAll (executions frames) bus = ⟨.ok (), after, notes⟩
    ∧ entries notes = trace

namespace Seen

variable {bus after : Peripheral} {frames : List Frame} {trace : List TraceEvent} {host : Host}

/-- A new host has seen nothing. -/
theorem fresh (inputs : InputRegister) (bus : Peripheral) : Seen bus [] [] { inputs } bus :=
  ⟨rfl, rfl, rfl, rfl, rfl, rfl, [], rfl, rfl⟩

/-- The request in the latches is the one that was spelled out. -/
theorem request_eq (h : Seen bus frames trace host after) (value : UInt8) :
    host.request value = requestAfter frames value := by
  rw [Host.request, requestAfter, h.opcode, h.addrHigh, h.addrLow]

/-- A frame that executes nothing is latched: the host has its byte where the next request will look
for it. The executions and what was served for them are as they were. -/
theorem quiet (h : Seen bus frames trace host after) (frame : Frame) (inputs : InputRegister)
    (hquiet : frame.phase = .execute → lastPhase frames = .execute) :
    Seen bus (frames ++ [frame]) trace
      { host.latch frame.phase frame.byte with
        phase := frame.phase, inputs, steps := host.steps + 1 } after := by
  have hnone : executions (frames ++ [frame]) = executions frames := by
    rw [executions_append, if_neg (fun hnew => hnew.2 (hquiet hnew.1)), List.append_nil]
  obtain ⟨phase, byte⟩ := frame
  obtain ⟨hphase, hopcode, hhigh, hlow, hsteps, hcommits, hserved⟩ := h
  constructor
  case phase => rw [lastPhase_append]
  case opcode => cases phase <;> simp [Host.latch, lastByte_append, hopcode]
  case addrHigh => cases phase <;> simp [Host.latch, lastByte_append, hhigh]
  case addrLow => cases phase <;> simp [Host.latch, lastByte_append, hlow]
  case steps => simp [hsteps]
  -- A latch does not touch the count of commits.
  case commits =>
    rw [hnone, ← hcommits]
    cases phase <;> rfl
  case served => rwa [hnone]

/-- A frame that executes a request has it served. The request is put together from the last frames
of the three phases before it, which is what the latches of the host hold. -/
theorem execute (h : Seen bus frames trace host after) {byte value : UInt8} {next : Peripheral}
    {lines : List Message} (inputs : InputRegister) (hnew : lastPhase frames ≠ .execute)
    (hserved : after.resolve (host.request byte)
      = ⟨.ok value, next, lines.map Note.message⟩) :
    Seen bus (frames ++ [⟨.execute, byte⟩])
      (trace ++ entries (transferNotes after (host.request byte) host.steps
        (lines.map Note.message) value))
      { host with
        phase := .execute, inputs, steps := host.steps + 1, commits := host.commits + 1 } next := by
  -- The phase before was another one, so this frame opens a new execution.
  have hone : executions (frames ++ [⟨.execute, byte⟩])
      = executions frames ++ [(frames.length, requestAfter frames byte)] := by
    rw [executions_append, if_pos ⟨rfl, hnew⟩]
  have hrequest := h.request_eq byte
  obtain ⟨hphase, hopcode, hhigh, hlow, hsteps, hcommits, notes, hall, htrace⟩ := h
  constructor
  case phase => rw [lastPhase_append]
  case opcode => simp [lastByte_append, hopcode]
  case addrHigh => simp [lastByte_append, hhigh]
  case addrLow => simp [lastByte_append, hlow]
  case steps => simp [hsteps]
  case commits => simp [hone, hcommits]
  case served =>
    rw [hrequest] at hserved ⊢
    rw [hsteps]
    refine ⟨notes ++ transferNotes after (requestAfter frames byte) frames.length
      (lines.map Note.message) value, ?_, by rw [entries_append, htrace]⟩
    rw [hone, serveAll_append, hall]
    simp [Step.andThen, serveAll, serve, hserved, Step.done]

end Seen

/-! ### Polls of many words -/

section Polls

variable {σ : Type} {link : Link σ} {bus after : Peripheral} {trace : List TraceEvent} {host : Host}

/-- A word that begins a run of execution frames has its request served, or the request reads past
the end of the input. -/
theorem poll_executes (hlink : link.Reliable) {frames : List Frame} {word : UInt16}
    (hrunning : (OutputRegister.ofBits word).halted = false)
    (hseen : Seen bus frames trace host after) (device : σ)
    (hobserve : host.observe (.ofBits word) = .ok (.execute, .entered))
    (hnew : lastPhase frames ≠ .execute) :
    (∃ last notes, (⟨host, device, after⟩ : Rig σ).poll (link.answering word)
          = ⟨.ok (.running .execute), last, notes⟩
        ∧ Seen bus (frames ++ [⟨.execute, (OutputRegister.ofBits word).busOut⟩])
          (trace ++ entries notes) last.host last.bus)
      ∨ ∃ consumed last notes, (⟨host, device, after⟩ : Rig σ).poll (link.answering word)
          = ⟨.error (.inputExhausted consumed), last, notes⟩ := by
  obtain ⟨result, next, notes, hresolve⟩ : ∃ result next notes,
      after.resolve (host.request (OutputRegister.ofBits word).busOut)
        = ⟨result, next, notes⟩ := ⟨_, _, _, rfl⟩
  obtain ⟨lines, rfl⟩ := Peripheral.exists_lines_of_resolve hresolve
  -- The stores decide: a read past the end of the input starves, and anything else is seen.
  cases result with
  | error fault =>
      obtain ⟨last, more, hpoll⟩ := Rig.poll_failed link device after hrunning hobserve hresolve
      obtain rfl := Peripheral.exhausted_of_resolve hresolve
      exact .inr ⟨_, last, more, hpoll⟩
  | ok value =>
      obtain ⟨inputs, sent, more, hpoll⟩ :=
        Rig.poll_served device after hrunning hlink hobserve hresolve
      refine .inl ⟨_, _, hpoll, ?_⟩
      rw [entries_append, entries_messages, List.append_nil]
      exact hseen.execute inputs hnew hresolve

/-- Any other word that is not refused is latched. That is a word whose phase is held, or one that
enters a phase which executes nothing. -/
theorem poll_latches (hlink : link.Reliable) {frames : List Frame} {word : UInt16}
    (hrunning : (OutputRegister.ofBits word).halted = false)
    (hseen : Seen bus frames trace host after) (device : σ) {phase : Phase}
    {transition : Transition} (hobserve : host.observe (.ofBits word) = .ok (phase, transition))
    (hquiet : transition = .entered → phase ≠ .execute)
    (hlast : phase = .execute → lastPhase frames = .execute) :
    ∃ last notes, (⟨host, device, after⟩ : Rig σ).poll (link.answering word)
        = ⟨.ok (.running phase), last, notes⟩
      ∧ Seen bus (frames ++ [⟨phase, (OutputRegister.ofBits word).busOut⟩])
        (trace ++ entries notes) last.host last.bus := by
  obtain ⟨inputs, sent, lines, hpoll⟩ :=
    Rig.poll_quiet device after hrunning hlink hobserve hquiet
  refine ⟨_, _, hpoll, ?_⟩
  rw [entries_messages, List.append_nil]
  exact hseen.quiet ⟨phase, (OutputRegister.ofBits word).busOut⟩ inputs hlast

/-- From what the host has seen, one more word is seen, or refused, or cannot be served. A word that
is seen is the register of a frame whose phase is held or entered, and what has been served and
traced then includes that frame. -/
theorem poll_cases (hlink : link.Reliable) {frames : List Frame} {word : UInt16}
    (hrunning : (OutputRegister.ofBits word).halted = false)
    (hseen : Seen bus frames trace host after) (device : σ) :
    (∃ frame phase last notes, OutputRegister.ofBits word = Frame.register frame
        ∧ (lastPhase frames = frame.phase ∨ (lastPhase frames).enters frame.phase = true)
        ∧ (⟨host, device, after⟩ : Rig σ).poll (link.answering word)
          = ⟨.ok (.running phase), last, notes⟩
        ∧ Seen bus (frames ++ [frame]) (trace ++ entries notes) last.host last.bus)
      ∨ (∃ violation last, Refused (lastPhase frames) (OutputRegister.ofBits word).state violation
        ∧ (⟨host, device, after⟩ : Rig σ).poll (link.answering word)
          = ⟨.error (.protocolViolation violation), last, []⟩)
      ∨ ∃ consumed last notes, (⟨host, device, after⟩ : Rig σ).poll (link.answering word)
          = ⟨.error (.inputExhausted consumed), last, notes⟩ := by
  have hcases := observe_cases host (OutputRegister.ofBits word)
  rw [hseen.phase] at hcases
  rcases hcases with ⟨violation, hobserve, hrefused⟩
    | ⟨phase, transition, hobserve, hstate, hfollows⟩
  · obtain ⟨last, hpoll⟩ := Rig.poll_violation link device after hrunning hobserve
    exact .inr (.inl ⟨violation, last, hrefused, hpoll⟩)
  have hword : OutputRegister.ofBits word
      = Frame.register ⟨phase, (OutputRegister.ofBits word).busOut⟩ := by
    rw [Frame.register, ← hstate, ← hrunning]
  rcases hfollows with ⟨rfl, hheld⟩ | ⟨rfl, hnew, henters⟩
  · -- The phase is held, so a run of execution frames has begun before.
    obtain ⟨last, notes, hpoll, hnext⟩ := poll_latches hlink hrunning hseen device hobserve
      (fun h => by cases h) (fun h => hheld.trans h)
    exact .inl ⟨_, _, last, notes, hword, .inl hheld, hpoll, hnext⟩
  by_cases hexecute : phase = .execute
  · subst hexecute
    rcases poll_executes hlink hrunning hseen device hobserve hnew with
      ⟨last, notes, hpoll, hnext⟩ | hstarved
    · exact .inl ⟨_, _, last, notes, hword, .inr henters, hpoll, hnext⟩
    · exact .inr (.inr hstarved)
  · obtain ⟨last, notes, hpoll, hnext⟩ := poll_latches hlink hrunning hseen device hobserve
      (fun _ => hexecute) (fun h => absurd h hexecute)
    exact .inl ⟨_, _, last, notes, hword, .inr henters, hpoll, hnext⟩

/-- From what the host has seen, more words are seen to their end, or up to the first one that is
refused or cannot be served. -/
theorem pollAll_cases (hlink : link.Reliable) (words : List UInt16)
    (hrunning : ∀ word ∈ words, (OutputRegister.ofBits word).halted = false) {before : List Frame}
    (hseen : Seen bus before trace host after) (hlegal : Legal .idle (before.map Frame.phase))
    (device : σ) :
    (∃ frames last notes, Shows words frames ∧ Legal .idle ((before ++ frames).map Frame.phase)
        ∧ Rig.pollAll link words ⟨host, device, after⟩ = ⟨.ok (), last, notes⟩
        ∧ Seen bus (before ++ frames) (trace ++ entries notes) last.host last.bus)
      ∨ (∃ front word back frames violation, words = front ++ word :: back ∧ Shows front frames
        ∧ Legal .idle ((before ++ frames).map Frame.phase)
        ∧ Refused (lastPhase (before ++ frames)) (OutputRegister.ofBits word).state violation
        ∧ (Rig.pollAll link words ⟨host, device, after⟩).result
          = .error (.protocolViolation violation))
      ∨ ∃ consumed, (Rig.pollAll link words ⟨host, device, after⟩).result
          = .error (.inputExhausted consumed) := by
  -- Induction on the words that are left. What was seen moves to the end of `before`, and `hseen`
  -- and `hlegal` follow.
  induction words generalizing before trace host after device with
  | nil =>
      refine .inl ⟨[], ⟨host, device, after⟩, [], rfl, by simpa using hlegal, rfl, ?_⟩
      simpa using hseen
  | cons word rest ih =>
      rcases poll_cases hlink (hrunning word (List.mem_cons_self ..)) hseen device with
        ⟨frame, phase, ⟨host', device', after'⟩, notes, hword, hfollows, hpoll, hnext⟩
          | ⟨violation, last, hrefused, hpoll⟩ | ⟨consumed, last, notes, hpoll⟩
      · -- The word is seen, and whatever becomes of the rest becomes of all the words.
        have hlegal' : Legal .idle ((before ++ [frame]).map Frame.phase) := by
          rw [List.map_append, List.map_singleton, legal_append_singleton]
          exact ⟨hlegal, hfollows⟩
        have hall : Rig.pollAll link (word :: rest) ⟨host, device, after⟩
            = ⟨(Rig.pollAll link rest ⟨host', device', after'⟩).result,
                (Rig.pollAll link rest ⟨host', device', after'⟩).state,
                notes ++ (Rig.pollAll link rest ⟨host', device', after'⟩).notes⟩ := by
          rw [Rig.pollAll, hpoll]
          rfl
        rw [hall]
        rcases ih (fun other hother => hrunning other (List.mem_cons_of_mem _ hother)) hnext
          hlegal' device' with
          ⟨frames, last, more, hshows, hlegalAll, hrest, hlast⟩
            | ⟨front, refused, back, frames, violation, hsplit, hshows, hlegalAll, hrefused, hrest⟩
            | hstarved
        · refine .inl ⟨frame :: frames, last, notes ++ more, ?_, ?_, by rw [hrest], ?_⟩
          · rw [Shows, List.map_cons, List.map_cons, hword, hshows]
          · simpa using hlegalAll
          · simpa using hlast
        · refine .inr (.inl ⟨word :: front, refused, back, frame :: frames, violation, ?_, ?_, ?_,
            ?_, hrest⟩)
          · rw [hsplit, List.cons_append]
          · rw [Shows, List.map_cons, List.map_cons, hword, hshows]
          · simpa using hlegalAll
          · simpa using hrefused
        · exact .inr (.inr hstarved)
      · refine .inr (.inl ⟨[], word, rest, [], violation, rfl, rfl, by simpa using hlegal,
          by simpa using hrefused, ?_⟩)
        rw [Rig.pollAll, hpoll]
        rfl
      · refine .inr (.inr ⟨consumed, ?_⟩)
        rw [Rig.pollAll, hpoll]
        rfl

end Polls

/-! ### Acceptance -/

/-- Two frames are not shown by one register. -/
theorem register_injective : Function.Injective Frame.register := by
  rintro ⟨phase, byte⟩ ⟨phase', byte'⟩ h
  have hbyte : byte = byte' := congrArg OutputRegister.busOut h
  have hstate : phase.state = phase'.state := congrArg OutputRegister.state h
  have hphase := Phase.ofState_state phase
  rw [hstate, Phase.ofState_state] at hphase
  rw [hbyte, Except.ok.inj hphase]

/-- Words show one sequence of frames at most. -/
theorem Shows.unique {words : List UInt16} {frames others : List Frame} (h : Shows words frames)
    (h' : Shows words others) : frames = others :=
  List.map_injective_iff.mpr register_injective (h.symm.trans h')

/-- Words one after the other show frames one after the other. -/
theorem Shows.split {words more : List UInt16} {frames : List Frame}
    (h : Shows (words ++ more) frames) :
    ∃ front back, frames = front ++ back ∧ Shows words front ∧ Shows more back := by
  rw [Shows, List.map_append] at h
  obtain ⟨front, back, rfl, hfront, hback⟩ := List.map_eq_append_iff.mp h.symm
  exact ⟨front, back, rfl, hfront.symm, hback.symm⟩

/-- The words are known phases of a device that runs, and these are a prefix of a word of the
grammar. -/
def Accepted (words : List UInt16) : Prop :=
  ∃ frames, Shows words frames ∧ ∃ rest, frames.map Frame.phase ++ rest ∈ grammar.matches'

/-- Frames are accepted exactly if their phases are legal. -/
theorem accepted_iff {words : List UInt16} {frames : List Frame} (h : Shows words frames) :
    Accepted words ↔ Legal .idle (frames.map Frame.phase) := by
  constructor
  · rintro ⟨others, hothers, hrest⟩
    rw [h.unique hothers]
    exact (prefix_mem_grammar_iff _).mp hrest
  · intro hlegal
    exact ⟨frames, h, (prefix_mem_grammar_iff _).mpr hlegal⟩

/-- A beginning of accepted words is accepted. -/
theorem Accepted.of_append {words more : List UInt16} (h : Accepted (words ++ more)) :
    Accepted words := by
  obtain ⟨frames, hshows, rest, hrest⟩ := h
  obtain ⟨front, back, rfl, hfront, -⟩ := hshows.split
  refine ⟨front, hfront, back.map Frame.phase ++ rest, ?_⟩
  rwa [← List.append_assoc, ← List.map_append]

/-- A refused word is not accepted behind the words before it. A word that shows no phase has no
frame, and a frame that does not follow leaves no residual of the grammar. -/
theorem not_accepted_of_refused {front : List UInt16} {word : UInt16} {frames : List Frame}
    (hshows : Shows front frames) {violation : Violation}
    (h : Refused (lastPhase frames) (OutputRegister.ofBits word).state violation) :
    ¬Accepted (front ++ [word]) := by
  intro haccepted
  have hall := haccepted
  obtain ⟨others, hothers, -⟩ := haccepted
  obtain ⟨front', back, rfl, hfront, hback⟩ := hothers.split
  obtain rfl := hfront.unique hshows
  obtain ⟨frame, rfl, hframe⟩ := List.map_eq_singleton_iff.mp (Eq.symm hback)
  have hstate : (OutputRegister.ofBits word).state = frame.phase.state := by
    rw [← hframe]
    rfl
  -- The phases of all the frames are legal, so the last of them is held or entered.
  have hlegal := (accepted_iff hothers).mp hall
  rw [List.map_append, List.map_singleton, legal_append_singleton] at hlegal
  cases h with
  | unknown hunknown => exact hunknown frame.phase hstate
  | @illegal next hcode hheld henters =>
      have hsame := Phase.ofState_state next
      rw [← hcode, hstate, Phase.ofState_state] at hsame
      obtain rfl := Except.ok.inj hsame
      rcases hlegal.2 with heq | henter
      · exact hheld heq
      · rw [← lastPhase, henters] at henter
        cases henter

/-- The host accepts exactly the grammar. Behind words that are accepted, a word that is not is
refused, for its code or for its phase. The requests that reach the stores are the executions among
the frames, each once and in order, and the trace has each at the position of its first frame. -/
theorem pollAll_grammar {σ : Type} {link : Link σ} (hlink : link.Reliable)
    (inputs : InputRegister) (device : σ) (bus : Peripheral) (words : List UInt16)
    (hrunning : ∀ word ∈ words, (OutputRegister.ofBits word).halted = false)
    (hreads : ∀ consumed, (Rig.pollAll link words ⟨{ inputs }, device, bus⟩).result
      ≠ .error (.inputExhausted consumed)) :
    ((∀ violation, (Rig.pollAll link words ⟨{ inputs }, device, bus⟩).result
        ≠ .error (.protocolViolation violation)) ↔ Accepted words)
      ∧ (¬Accepted words → ∃ front word back frames, words = front ++ word :: back
        ∧ Accepted front ∧ ¬Accepted (front ++ [word]) ∧ Shows front frames
        ∧ ((∀ phase : Phase, (OutputRegister.ofBits word).state ≠ phase.state)
            ∧ (Rig.pollAll link words ⟨{ inputs }, device, bus⟩).result
              = .error (.protocolViolation (.unknownState (OutputRegister.ofBits word).state))
          ∨ ∃ next : Phase, (OutputRegister.ofBits word).state = next.state
            ∧ (Rig.pollAll link words ⟨{ inputs }, device, bus⟩).result
              = .error (.protocolViolation (.illegalTransition (lastPhase frames) next))))
      ∧ ∀ frames, Accepted words → Shows words frames →
        ∃ last notes more, Rig.pollAll link words ⟨{ inputs }, device, bus⟩ = ⟨.ok (), last, notes⟩
          ∧ serveAll (executions frames) bus = ⟨.ok (), last.bus, more⟩
          ∧ entries notes = entries more
          ∧ last.host.commits = (executions frames).length := by
  -- Three ends: all words seen, one refused, or a read that starves, which `hreads` excludes.
  rcases pollAll_cases hlink words hrunning (Seen.fresh inputs bus) trivial device with
    ⟨frames, last, notes, hshows, hlegal, hpolls, hseen⟩
      | ⟨front, word, back, frames, violation, rfl, hshows, hlegal, hrefused, hpolls⟩
      | ⟨consumed, hstarved⟩
  · -- Every word was seen.
    rw [List.nil_append] at hlegal hseen
    have haccepted : Accepted words := (accepted_iff hshows).mpr hlegal
    obtain ⟨more, hserved, hentries⟩ := hseen.served
    refine ⟨⟨fun _ => haccepted, ?_⟩, fun h => absurd haccepted h, ?_⟩
    · intro _ violation
      simp [hpolls]
    · intro others _ hothers
      obtain rfl := hshows.unique hothers
      exact ⟨last, notes, more, hpolls, hserved, hentries.symm, hseen.commits⟩
  · -- A word was refused.
    rw [List.nil_append] at hlegal hrefused
    have hfront : Accepted front := (accepted_iff hshows).mpr hlegal
    have hbroken := not_accepted_of_refused hshows hrefused
    have hall : ¬Accepted (front ++ word :: back) := by
      intro h
      rw [List.append_cons] at h
      exact hbroken h.of_append
    refine ⟨⟨fun h => absurd hpolls (h violation), fun h => absurd h hall⟩, ?_,
      fun _ h => absurd h hall⟩
    intro _
    refine ⟨front, word, back, frames, rfl, hfront, hbroken, hshows, ?_⟩
    cases hrefused with
    | unknown hunknown => exact .inl ⟨hunknown, hpolls⟩
    | illegal hcode => exact .inr ⟨_, hcode, hpolls⟩
  · exact absurd hstarved (hreads consumed)

/-- A pass that writes a byte to the output, with its execution seen twice. -/
def emitting : List UInt16 :=
  [0x107, 0x200, 0x305, 0x441, 0x441]

/-- The frames of that pass. -/
def emittingFrames : List Frame :=
  [⟨.opcode, 7⟩, ⟨.addressHigh, 0⟩, ⟨.addressLow, 5⟩, ⟨.execute, 0x41⟩, ⟨.execute, 0x41⟩]

/-- Stores in front of which nothing has happened. -/
def untouched : Peripheral where
  program := .empty
  data := .zero
  channel := {}

/-- The pass is accepted, and its byte is written once. A pass without an operation code is
refused at its first word. -/
theorem pollAll_grammar_emitting :
    (∀ word ∈ emitting, (OutputRegister.ofBits word).halted = false)
      ∧ Accepted emitting
      ∧ (∃ last notes, Rig.pollAll Chip.link emitting ⟨{}, {}, untouched⟩ = ⟨.ok (), last, notes⟩
        ∧ last.host.commits = 1 ∧ last.bus.channel.output = #[0x41]
        ∧ entries notes = [.transaction 3 .writeIo 5 0x41 0])
      ∧ ¬Accepted emitting.tail := by
  have hlink : Chip.link.Reliable := ⟨fun _ _ => rfl, fun _ => rfl⟩
  have hrunning : ∀ word ∈ emitting, (OutputRegister.ofBits word).halted = false := by
    simp only [emitting, List.mem_cons, List.not_mem_nil, or_false, forall_eq_or_imp, forall_eq]
    decide
  -- The two runs are computed. The theorem then says, in both directions, what the words mean.
  have hresult : (Rig.pollAll Chip.link emitting ⟨{}, {}, untouched⟩).result = .ok () := by
    decide +kernel
  have hrefused : (Rig.pollAll Chip.link emitting.tail ⟨{}, {}, untouched⟩).result
      = .error (.protocolViolation (.illegalTransition .idle .addressHigh)) := by
    decide +kernel
  obtain ⟨haccepts, -, hserves⟩ := pollAll_grammar hlink {} {} untouched emitting hrunning
    (by simp [hresult])
  obtain ⟨hrefuses, -, -⟩ := pollAll_grammar hlink {} {} untouched emitting.tail
    (fun word hword => hrunning word (List.mem_of_mem_tail hword)) (by simp [hrefused])
  have haccepted : Accepted emitting := haccepts.mp (by simp [hresult])
  obtain ⟨last, notes, more, hpolls, hserved, hentries, hcommits⟩ :=
    hserves emittingFrames haccepted rfl
  refine ⟨hrunning, haccepted, ⟨last, notes, hpolls, hcommits, ?_, ?_⟩,
    fun h => hrefuses.mpr h _ hrefused⟩
  · have hbus : (serveAll (executions emittingFrames) untouched).state = last.bus := by
      rw [hserved]
    rw [← hbus]
    rfl
  · have hmore : (serveAll (executions emittingFrames) untouched).notes = more := by
      rw [hserved]
    rw [hentries, ← hmore]
    rfl

end TapeBench.Serial
