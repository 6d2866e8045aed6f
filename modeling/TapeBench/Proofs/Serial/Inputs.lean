import TapeBench.Proofs.Reaches
import TapeBench.Proofs.Serial.Refusal
import TapeBench.Proofs.Trace

/-!
# `TapeBench.Proofs.Serial.Inputs`: the input register follows the phases

The host keeps the input register as it wants it, and writes it to the link when a phase is entered.
A device takes `bus_in` on the word of `op_done` alone, so the flag must not outlive its
execution, whichever way the device leaves it, and the register must not change without being
written. Both hold behind every sequence of successful asks, whatever words are polled.

* `Ask`: what a host may be asked to do.
* `Taken`: what one poll does to the host, and with which calls to the link.
* `Registered`: what holds of the register, the counts and the calls.
* `inputs_registered`: it holds behind every sequence of asks that succeed.
-/

set_option autoImplicit false

namespace TapeBench

namespace Serial

variable {σ : Type}

/-- What a host is asked to do:

- `enable`: it lets the device run;
- `poll`: it polls the device. -/
inductive Ask where
  | enable
  | poll
  deriving DecidableEq

/-- A host does as it is asked. A poll gives what it found. -/
def Ask.act (link : Link σ) (ask : Ask) (rig : Rig σ) : Step (Rig σ) (Option Polled) :=
  match ask with
  | .enable => (rig.enable link).andThen fun _ rig => .done none rig []
  | .poll => (rig.poll link).andThen fun found rig => .done (some found) rig []

/-- The word that a call writes to the input register. -/
def written? : LinkCall → Option UInt16
  | .inputs bits => some bits
  | .reset _ | .outputs | .step | .hold _ => none

/-- The word that was written to the input register last. -/
def lastInputs? (calls : List LinkCall) : Option UInt16 :=
  (calls.filterMap written?).getLast?

/-- The value of the last read, or zero if there was none. -/
def lastRead (served : List Transfer) : UInt8 :=
  ((served.filter fun transfer => transfer.request.op.isRead).map Transfer.value).getLastD 0

/-- The last word is among the later calls, or among the earlier ones if the later ones write
none. -/
theorem lastInputs?_append (calls more : List LinkCall) :
    lastInputs? (calls ++ more) = (lastInputs? more).or (lastInputs? calls) := by
  rw [lastInputs?, List.filterMap_append, List.getLast?_append]
  rfl

/-- A read replaces the value of the last one, and any other transfer leaves it. -/
theorem lastRead_concat (served : List Transfer) (time : Nat) (request : Bus.Request)
    (value : UInt8) :
    lastRead (served ++ [⟨time, request, value⟩])
      = if request.op.isRead then value else lastRead served := by
  rw [lastRead, List.filter_append, List.map_append]
  cases hread : request.op.isRead <;> simp [hread, lastRead]

/-- The phase in which a poll found the device running. -/
def running? : Ask × Option Polled → Option Phase
  | (_, some (.running phase)) => some phase
  | (_, some .halted) | (_, none) => none

/-- The input register after a phase was entered that executes nothing. -/
def entering (phase : Phase) (inputs : InputRegister) : InputRegister :=
  match phase with
  | .idle | .opcode => { inputs with opDone := false }
  | .addressHigh | .addressLow | .execute => inputs

/-- What a poll did that gave `found`, with the calls that it made to the link, the transfers in its
trace and the host behind it. The latches may have changed in any way:

- `halted`: the device has halted, and nothing was done;
- `held`: the phase was seen before, and the clock was pulsed;
- `entered`: the phase is a new one without a transaction;
- `executed`: the phase is a new one, and its transaction was served with `value`. -/
inductive Taken (host : Host) : Polled → List LinkCall → List Transfer → Host → Prop
  | halted : Taken host .halted [.outputs] [] host
  | held (opcode addrHigh addrLow : UInt8) :
      Taken host (.running host.phase) [.outputs, .step] []
        { host with opcode, addrHigh, addrLow, steps := host.steps + 1 }
  | entered {phase : Phase} (opcode addrHigh addrLow : UInt8)
      (henters : host.phase.enters phase = true) (hquiet : phase ≠ .execute) :
      Taken host (.running phase)
        [.outputs, .inputs (entering phase host.inputs).toBits, .step] []
        { host with
          phase, opcode, addrHigh, addrLow
          inputs := entering phase host.inputs
          steps := host.steps + 1 }
  | executed (byte value : UInt8) (henters : host.phase.enters .execute = true) :
      Taken host (.running .execute)
        [.outputs, .inputs (host.committed (host.request byte) value).inputs.toBits, .step]
        [⟨host.steps, host.request byte, value⟩]
        { host.committed (host.request byte) value with
          phase := .execute, steps := host.steps + 1 }

/-! ### One poll -/

section Poll

variable {link : Link σ}

/-- Latching a byte changes the latches only. -/
theorem exists_latches (host : Host) (phase : Phase) (byte : UInt8) :
    ∃ opcode addrHigh addrLow,
      host.latch phase byte = { host with opcode, addrHigh, addrLow } := by
  cases phase <;> exact ⟨_, _, _, rfl⟩

/-- A clock pulse that succeeds remembers the phase and is counted. The stores and the trace are
left alone. -/
theorem pulse_of_ok {phase : Phase} {rig last : Rig σ} {found : Polled} {notes : List Note}
    (h : rig.pulse link phase = ⟨.ok found, last, notes⟩) :
    found = .running phase
      ∧ last = ⟨{ rig.host with phase, steps := rig.host.steps + 1 },
        (link.stepClock rig.device).2, rig.bus⟩
      ∧ entries notes = [] := by
  obtain ⟨host, device, bus⟩ := rig
  obtain ⟨result, after, hcall⟩ : ∃ result after, link.stepClock device = (result, after) :=
    ⟨_, _, rfl⟩
  simp only [Rig.pulse, hcall] at h ⊢
  cases result with
  | error error => cases h
  | ok value =>
      cases h
      exact ⟨rfl, rfl, entries_messages _⟩

/-- A transaction that succeeds was served, and is the only transfer in the trace. It bears the
number of pulses so far for its time. -/
theorem execute_of_ok {byte : UInt8} {rig last : Rig σ} {notes : List Note}
    (h : rig.execute byte = ⟨.ok (), last, notes⟩) :
    ∃ value next, last = ⟨rig.host.committed (rig.host.request byte) value, rig.device, next⟩
      ∧ transfers (entries notes) = [⟨rig.host.steps, rig.host.request byte, value⟩] := by
  obtain ⟨host, device, bus⟩ := rig
  obtain ⟨result, next, lines, hresolve⟩ : ∃ result next lines,
      bus.resolve (host.request byte) = ⟨result, next, lines⟩ := ⟨_, _, _, rfl⟩
  cases result with
  | error fault =>
      obtain ⟨more, hfailed⟩ := Rig.execute_failed device hresolve
      rw [hfailed] at h
      cases h
  | ok value =>
      rw [Rig.execute_served device hresolve] at h
      cases h
      refine ⟨value, next, rfl, ?_⟩
      obtain ⟨logged, rfl⟩ := Peripheral.exists_lines_of_resolve hresolve
      rw [entries_transferNotes, transfers_transferred]

/-- Entering a phase that executes nothing sets the input register and serves nothing. -/
theorem enter_quiet {phase : Phase} (hquiet : phase ≠ .execute) (byte : UInt8) (rig : Rig σ) :
    rig.enter phase byte
      = ⟨.ok (), { rig with host := { rig.host with inputs := entering phase rig.host.inputs } },
          []⟩ := by
  cases phase with
  | execute => exact absurd rfl hquiet
  | idle | opcode | addressHigh | addressLow => rfl

/-- Behind a phase that was entered and served, the input register is written and the clock is
pulsed. The order matters: the chip sees the new register with that very pulse. -/
theorem exchange_of_ok {phase : Phase} {byte : UInt8} {rig last : Rig σ} {found : Polled}
    {notes : List Note} (h : rig.exchange link phase .entered byte = ⟨.ok found, last, notes⟩) :
    ∃ served front, Rig.enter phase byte { rig with host := rig.host.latch phase byte }
        = ⟨.ok (), served, front⟩
      ∧ found = .running phase
      ∧ last = ⟨{ served.host with phase, steps := served.host.steps + 1 },
        (link.stepClock (link.setInputs served.host.inputs.toBits served.device).2).2, served.bus⟩
      ∧ entries notes = entries front := by
  -- From the end: the pulse, the write in front of it, and the phase that was served before both.
  obtain ⟨_, sent, first, third, hfirst, hpulse, rfl⟩ := Step.of_andThen_ok h
  obtain ⟨_, served, front, second, henter, hsend, rfl⟩ := Step.of_andThen_ok hfirst
  rw [Rig.sendInputs_eq] at hsend
  generalize (link.setInputs served.host.inputs.toBits served.device).1 = written at hsend
  obtain ⟨hfound, rfl, hsilent⟩ := pulse_of_ok hpulse
  cases written with
  | error error => cases hsend
  | ok value =>
      cases hsend
      refine ⟨served, front, henter, hfound, rfl, ?_⟩
      rw [entries_append, entries_append, hsilent, entries_nil, List.append_nil, List.append_nil]

/-- A poll that succeeds does one of the four: it finds the device halted, it finds the phase of the
poll before, it enters a phase that executes nothing, or it enters the execution phase and serves
the request. -/
theorem taken_of_poll {rig last : Rig (Recorded LinkCall σ)} {found : Polled} {notes : List Note}
    (h : rig.poll link.recorded = ⟨.ok found, last, notes⟩) :
    ∃ calls, Taken rig.host found calls (transfers (entries notes)) last.host
      ∧ last.device.calls.toList = rig.device.calls.toList ++ calls := by
  obtain ⟨host, device, bus⟩ := rig
  simp only [Rig.poll] at h
  split at h
  · cases h
  rename_i bits after hread
  have hafter : after.calls = device.calls.push .outputs :=
    (congrArg (fun outcome => outcome.2.calls) hread).symm
  split at h
  · cases h
    exact ⟨[.outputs], .halted, by rw [hafter, Array.toList_push]⟩
  -- The word is refused, or its phase is held or entered.
  rcases observe_cases host (.ofBits bits) with ⟨violation, hobserve, -⟩
    | ⟨phase, transition, hobserve, -, ⟨rfl, rfl⟩ | ⟨rfl, -, henters⟩⟩
  · simp only [hobserve] at h
    cases h
  · simp only [hobserve, Rig.exchange] at h
    obtain ⟨opcode, addrHigh, addrLow, hlatch⟩ :=
      exists_latches host host.phase (OutputRegister.ofBits bits).busOut
    rw [hlatch] at h
    obtain ⟨rfl, rfl, hsilent⟩ := pulse_of_ok h
    rw [hsilent]
    refine ⟨[.outputs, .step], .held opcode addrHigh addrLow, ?_⟩
    show (after.calls.push .step).toList = _
    simp [hafter]
  · simp only [hobserve] at h
    obtain ⟨served, front, henter, rfl, rfl, htrace⟩ := exchange_of_ok h
    rw [htrace]
    by_cases hphase : phase = .execute
    · subst hphase
      obtain ⟨value, next, hserved, htransfers⟩ := execute_of_ok henter
      rw [htransfers, hserved]
      refine ⟨_, .executed (OutputRegister.ofBits bits).busOut value henters, ?_⟩
      show ((after.calls.push _).push .step).toList = _
      rw [hafter]
      simp only [Array.toList_push, List.append_assoc]
      rfl
    · rw [enter_quiet hphase] at henter
      cases henter
      obtain ⟨opcode, addrHigh, addrLow, hlatch⟩ :=
        exists_latches host phase (OutputRegister.ofBits bits).busOut
      rw [hlatch]
      refine ⟨_, .entered opcode addrHigh addrLow henters hphase, ?_⟩
      show ((after.calls.push _).push .step).toList = _
      rw [hafter]
      simp only [Array.toList_push, List.append_assoc]
      rfl

end Poll

/-! ### Every sequence of asks -/

/-- What holds of a host that began with cleared registers, has done what `history` tells, has made
`calls` to the link and has left the transfers `served` in the trace:

- `phase`: it remembers the phase in which it found the device running last;
- `opDone`: `op_done` is up in the execution phase, and in no other;
- `busIn`: `bus_in` is the value of the last read;
- `enable`: `enable` is up if it was asked for;
- `written`: the word that the link got last is the register as it is, or the link got none and the
  register is cleared;
- `steps`: each poll that found the device running is counted;
- `commits`: each transfer is counted. -/
structure Registered (history : List (Ask × Option Polled)) (calls : List LinkCall)
    (served : List Transfer) (host : Host) : Prop where
  phase : host.phase = (history.filterMap running?).getLastD .idle
  opDone : host.inputs.opDone = true ↔ host.phase = .execute
  busIn : host.inputs.busIn = lastRead served
  enable : host.inputs.enable = true ↔ ∃ entry ∈ history, entry.1 = .enable
  written : lastInputs? calls = some host.inputs.toBits
    ∨ lastInputs? calls = none ∧ host.inputs = {}
  steps : host.steps = (history.filterMap running?).length
  commits : host.commits = served.length

namespace Registered

variable {history : List (Ask × Option Polled)} {calls : List LinkCall} {served : List Transfer}
  {host : Host}

/-- A new host. -/
theorem new : Registered [] [] [] {} where
  phase := rfl
  opDone := by decide
  busIn := rfl
  enable := by simp
  written := .inr ⟨rfl, rfl⟩
  steps := rfl
  commits := rfl

/-- A host that was asked to let the device run. It writes its register with `enable` up, and the
other fields of the word are those of the last write. -/
theorem enabled (h : Registered history calls served host) :
    Registered (history ++ [(.enable, none)])
      (calls ++ [.inputs { host.inputs with enable := true }.toBits]) served
      { host with inputs := { host.inputs with enable := true } } where
  phase := by simp [running?, h.phase]
  opDone := h.opDone
  busIn := h.busIn
  enable := by simp
  written := .inl (lastInputs?_append calls _)
  steps := by simp [running?, h.steps]
  commits := h.commits

/-- Of a phase that may be entered and executes nothing, `op_done` is down. Only the idle phase is
entered from an execution, where it is lowered, and the phases behind it find it down. -/
theorem opDone_entering (h : Registered history calls served host) {phase : Phase}
    (henters : host.phase.enters phase = true) (hquiet : phase ≠ .execute) :
    (entering phase host.inputs).opDone = false := by
  have hdown : host.phase ≠ .execute → host.inputs.opDone = false := by
    intro hphase
    exact Bool.eq_false_iff.mpr fun hup => hphase (h.opDone.mp hup)
  cases phase with
  | execute => exact absurd rfl hquiet
  | idle | opcode => rfl
  | addressHigh | addressLow =>
      -- An address phase leaves the flag, and is not entered from the execution.
      refine hdown ?_
      intro hexecute
      rw [hexecute] at henters
      cases henters

/-- A host that has polled. One case for each of the four things that a poll may have done, and in
each of them only the fields that it touches are new. -/
theorem polled {found : Polled} {more : List LinkCall} {later : List Transfer} {next : Host}
    (h : Registered history calls served host) (htaken : Taken host found more later next) :
    Registered (history ++ [(.poll, some found)]) (calls ++ more) (served ++ later) next := by
  -- A poll is no request to enable, so it leaves that equivalence as it was.
  have henable : host.inputs.enable = true
      ↔ ∃ entry ∈ history ++ [(Ask.poll, some found)], entry.1 = .enable := by
    simpa using h.enable
  cases htaken with
  -- One case for what a poll can do. Nothing is written before the phase changes, so the first two
  -- keep the last word, and the other two say it anew.
  | halted =>
      rw [List.append_nil]
      exact
        { h with
          phase := by simp [running?, h.phase]
          enable := henable
          written := by
            rw [lastInputs?_append]
            exact h.written
          steps := by simp [running?, h.steps] }
  | held opcode addrHigh addrLow =>
      rw [List.append_nil]
      exact
        { h with
          phase := by simp [running?]
          enable := henable
          written := by
            rw [lastInputs?_append]
            exact h.written
          steps := by simp [running?, h.steps] }
  | @entered phase opcode addrHigh addrLow henters hquiet =>
      rw [List.append_nil]
      exact
        { phase := by simp [running?]
          opDone := by simp [h.opDone_entering henters hquiet, hquiet]
          busIn := by cases phase <;> exact h.busIn
          enable := by cases phase <;> exact henable
          written := .inl (lastInputs?_append calls _)
          steps := by simp [running?, h.steps]
          commits := h.commits }
  | executed byte value henters =>
      exact
        { phase := by simp [running?]
          opDone := by simp [Host.committed]
          busIn := by
            rw [lastRead_concat, ← h.busIn]
            rfl
          enable := henable
          written := .inl (lastInputs?_append calls _)
          steps := by simp [running?, h.steps]
          commits := by simp [Host.committed, h.commits] }

end Registered

section Sequence

variable {link : Link σ} {ask : Ask} {value : Option Polled} {notes : List Note}
  {history : List (Ask × Option Polled)} {served : List Transfer}
  {rig last : Rig (Recorded LinkCall σ)}

/-- Letting the device run writes the register and does nothing else: no pulse, no request and no
note. -/
theorem enable_of_ok (h : rig.enable link.recorded = ⟨.ok (), last, notes⟩) :
    last.host = { rig.host with inputs := { rig.host.inputs with enable := true } }
      ∧ last.device.calls.toList
        = rig.device.calls.toList ++ [.inputs { rig.host.inputs with enable := true }.toBits]
      ∧ last.bus = rig.bus ∧ notes = [] := by
  obtain ⟨host, device, bus⟩ := rig
  rw [Rig.enable, Rig.sendInputs_eq] at h
  generalize (link.recorded.setInputs _ _).1 = written at h
  cases written with
  | error error => cases h
  | ok value =>
      cases h
      exact ⟨rfl, Array.toList_push, rfl, rfl⟩

/-- What a host did that was asked for something: it let the device run, or it polled and tells what
it found. -/
theorem act_cases (h : ask.act link.recorded rig = ⟨.ok value, last, notes⟩) :
    (ask = .enable ∧ value = none ∧ rig.enable link.recorded = ⟨.ok (), last, notes⟩)
      ∨ ∃ found, ask = .poll ∧ value = some found
        ∧ rig.poll link.recorded = ⟨.ok found, last, notes⟩ := by
  cases ask with
  | enable =>
      simp only [Ask.act] at h
      obtain ⟨_, middle, front, _, henable, hdone, rfl⟩ := Step.of_andThen_ok h
      cases hdone
      exact .inl ⟨rfl, rfl, by rw [henable, List.append_nil]⟩
  | poll =>
      simp only [Ask.act] at h
      obtain ⟨found, middle, front, _, hpoll, hdone, rfl⟩ := Step.of_andThen_ok h
      cases hdone
      exact .inr ⟨found, rfl, rfl, by rw [hpoll, List.append_nil]⟩

/-- Doing what it is asked for keeps the register of a host, with the calls and the transfers that
were made for it behind the earlier ones. -/
theorem registered_act (hregistered : Registered history rig.device.calls.toList served rig.host)
    (h : ask.act link.recorded rig = ⟨.ok value, last, notes⟩) :
    Registered (history ++ [(ask, value)]) last.device.calls.toList
      (served ++ transfers (entries notes)) last.host := by
  rcases act_cases h with ⟨rfl, rfl, henable⟩ | ⟨found, rfl, rfl, hpoll⟩
  · obtain ⟨hhost, hcalls, -, rfl⟩ := enable_of_ok henable
    rw [hhost, hcalls, entries_nil, transfers_nil, List.append_nil]
    exact hregistered.enabled
  · obtain ⟨calls, htaken, hcalls⟩ := taken_of_poll hpoll
    rw [hcalls]
    exact hregistered.polled htaken

/-- Doing what it is asked for accounts for the transfers of a host, within the pulses that it took.
-/
theorem accounts_act (h : ask.act link.recorded rig = ⟨.ok value, last, notes⟩) :
    Account Transfer.Before rig.host.steps last.host.steps rig.bus (entries notes) last.bus
      ∧ rig.host.steps ≤ last.host.steps := by
  rcases act_cases h with ⟨rfl, rfl, henable⟩ | ⟨found, rfl, rfl, hpoll⟩
  · obtain ⟨hhost, -, hbus, rfl⟩ := enable_of_ok henable
    rw [hhost, hbus]
    exact ⟨.nil _ _ _ _, Nat.le_refl _⟩
  · have haccount := (accounts_poll link.recorded rig).account
    rw [hpoll] at haccount
    obtain ⟨calls, htaken, -⟩ := taken_of_poll hpoll
    generalize hserved : transfers (entries notes) = later at htaken
    generalize last.host = next at htaken ⊢
    cases htaken with
    | halted =>
        -- The account of a poll spans a step, and a poll that finds the device halted takes none.
        obtain ⟨hsilent, hbus⟩ := haccount.eq_nil hserved
        rw [hsilent, hbus]
        exact ⟨.nil _ _ _ _, Nat.le_refl _⟩
    | held _ _ _ | entered _ _ _ _ _ | executed _ _ _ => exact ⟨haccount, Nat.le_succ _⟩

end Sequence

/-- The input register of a host that began with cleared registers, in front of any stores and with
any link, behind every sequence of asks that succeed. The transfers are what the stores were asked
for and gave, and the stores have counted as many requests. -/
theorem inputs_registered (link : Link σ) (device : σ) (bus : Peripheral)
    {history : List (Ask × Option Polled)} {notes : List Note} {last : Rig (Recorded LinkCall σ)}
    (h : Reaches (Ask.act link.recorded) ⟨{}, ⟨device, #[]⟩, bus⟩ history notes last) :
    Registered history last.device.calls.toList (transfers (entries notes)) last.host
      ∧ Account Transfer.Before 0 last.host.steps bus (entries notes) last.bus
      ∧ last.bus.tally.total = bus.tally.total + last.host.commits := by
  -- Every ask keeps the register and the account. The count of the stores follows from both.
  suffices hkept : Registered history last.device.calls.toList (transfers (entries notes)) last.host
      ∧ Account Transfer.Before 0 last.host.steps bus (entries notes) last.bus by
    obtain ⟨hregistered, haccount⟩ := hkept
    refine ⟨hregistered, haccount, ?_⟩
    rw [haccount.total, hregistered.commits]
  induction h with
  | refl => exact ⟨.new, .nil _ _ _ _⟩
  | snoc before hact ih =>
      obtain ⟨hregistered, haccount⟩ := ih
      obtain ⟨hlater, hle⟩ := accounts_act hact
      rw [entries_append, transfers_append]
      exact ⟨registered_act hregistered hact,
        haccount.append (fun _ _ h => h) (Nat.zero_le _) hle hlater⟩

/-- A read takes five polls, one of them of a phase that is held. A request for nothing follows
without a pause, and behind it the device halts. -/
def readThenNothing : Rig (Recorded LinkCall Scripted.Tape) where
  host := {}
  device := ⟨{ outputs := [0x106, 0x200, 0x300, 0x400, 0x400, 0x100, 0x200, 0x300, 0x400, 0x800] },
    #[]⟩
  bus := { untouched with channel := .ofInput #[65] .fail }

/-- The byte stays in the register, and `op_done` is raised for the second execution again. -/
theorem inputs_registered_read_then_nothing : ∃ history notes last,
    Reaches (Ask.act Scripted.link.recorded) readThenNothing history notes last
      ∧ history.length = 11 ∧ last.host.inputs = ⟨true, true, 65⟩
      ∧ last.host.phase = .execute ∧ last.host.steps = 9 ∧ last.host.commits = 2
      ∧ Registered history last.device.calls.toList (transfers (entries notes)) last.host := by
  have hreaches := reaches_of_attempt
    (show attempt (Ask.act Scripted.link.recorded) (.enable :: List.replicate 10 .poll)
      readThenNothing = some _ from rfl)
  exact ⟨_, _, _, hreaches, rfl, rfl, rfl, rfl, rfl, (inputs_registered _ _ _ hreaches).1⟩

end Serial

end TapeBench
