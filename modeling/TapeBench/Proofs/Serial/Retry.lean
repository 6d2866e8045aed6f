import TapeBench.Proofs.Serial.Refusal

/-!
# `TapeBench.Proofs.Serial.Retry`: an execution that is polled again

The host remembers the execution phase only behind the write of the input register. Once it does, it
holds the phase however often it is polled, and whatever reads and clock pulses fail. But if the
write fails, the transaction has been served and the phase has not been remembered, so that the next
poll enters the execution phase again and serves the transaction again. A stretch of polls that all
find one execution serves its transaction exactly as often as it writes the input register, and each
of these writes but the last has failed.

* `Link.logged`: a link with the outcome of each write of the input register taken down.
* `Rig.persist`: polls that go on behind a poll that fails.
* `Presents`: a stretch of polls that find one execution.
* `Execution`: what one poll can make of it.
* `Repeats`: what a stretch makes of it.
* `served_once_per_write`: a stretch serves its transaction once for each write.
* `served_twice`: a stretch of two polls that serves its transaction twice.
-/

set_option autoImplicit false

namespace TapeBench.Serial

open Bus (Request)

variable {σ : Type}

/-- A link with the outcomes of the writes of its input register, in order. -/
abbrev Logged (σ : Type) : Type :=
  Recorded (Except LinkError Unit) σ

/-- Makes a call that is not taken down. -/
def Logged.pass {α : Type} (change : σ → α × σ) (logged : Logged σ) : α × Logged σ :=
  match logged with
  | ⟨device, calls⟩ =>
    match change device with
    | (result, device) => (result, ⟨device, calls⟩)

/-- The link, with the outcome of each write of the input register taken down. It gives the same
results as the link itself, so what is shown of it is shown of the link. -/
def Link.logged (link : Link σ) : Link (Logged σ) where
  setReset := fun high => Logged.pass (link.setReset high)
  setInputs := fun bits logged =>
    match logged with
    | ⟨device, calls⟩ =>
      match link.setInputs bits device with
      | (result, device) => (result, ⟨device, calls.push result⟩)
  getOutputs := Logged.pass link.getOutputs
  stepClock := Logged.pass link.stepClock
  hold := fun ns logged => ⟨link.hold ns logged.device, logged.calls⟩
  stepMessages := fun logged => link.stepMessages logged.device

/-- Polls, one after another, also behind a poll that fails. -/
def Rig.persist (link : Link σ) : Nat → Rig σ → Rig σ × List Note
  | 0, rig => (rig, [])
  | n + 1, rig =>
    match rig.poll link with
    | ⟨_, rig, notes⟩ =>
      match persist link n rig with
      | (last, more) => (last, notes ++ more)

/-- The output register shows the execution phase with `byte`, if it can be read. -/
def Executing (link : Link σ) (byte : UInt8) (rig : Rig σ) : Prop :=
  ∀ word, (link.getOutputs rig.device).1 = .ok word →
    OutputRegister.ofBits word = (Frame.mk .execute byte).register

/-- Each of `n` polls, failing or not, finds the execution phase with the same byte if it can read
the output register. -/
def Presents (link : Link σ) (byte : UInt8) : Nat → Rig σ → Prop
  | 0, _ => True
  | n + 1, rig => Executing link byte rig ∧ Presents link byte n (rig.poll link).state

/-! ### One poll -/

/-- What a poll of an execution does:

- `refused`: it is turned away;
- `held`: the execution was entered before, so only the clock is pulsed, with or without success;
- `interrupted`: the transaction is served, and the write of the input register fails;
- `entered`: the transaction is served, the input register is written, and the clock is pulsed, with
  or without success. -/
inductive Execution (byte : UInt8) (host : Host) (calls : Array (Except LinkError Unit))
    (bus : Peripheral) : Step (Rig (Logged σ)) Polled → Prop
  | refused (result : Except Fault Polled) (device : σ) :
      Execution byte host calls bus ⟨result, ⟨host, ⟨device, calls⟩, bus⟩, []⟩
  | held (result : Except Fault Polled) (steps : Nat) (device : σ) (lines : List Message)
      (hphase : host.phase = .execute) :
      Execution byte host calls bus
        ⟨result, ⟨{ host with steps }, ⟨device, calls⟩, bus⟩, lines.map Note.message⟩
  | interrupted (error : LinkError) (device : σ) {value : UInt8} {next : Peripheral}
      {notes : List Note} (hphase : host.phase ≠ .execute)
      (hserved : bus.resolve (host.request byte) = ⟨.ok value, next, notes⟩) :
      Execution byte host calls bus
        ⟨.error (.link error),
          ⟨host.committed (host.request byte) value, ⟨device, calls.push (.error error)⟩, next⟩,
          transferNotes bus (host.request byte) host.steps notes value⟩
  | entered (result : Except Fault Polled) (steps : Nat) (device : σ) (lines : List Message)
      {value : UInt8} {next : Peripheral} {notes : List Note} (hphase : host.phase ≠ .execute)
      (hserved : bus.resolve (host.request byte) = ⟨.ok value, next, notes⟩) :
      Execution byte host calls bus
        ⟨result,
          ⟨{ host.committed (host.request byte) value with phase := .execute, steps },
            ⟨device, calls.push (.ok ())⟩, next⟩,
          transferNotes bus (host.request byte) host.steps notes value ++ lines.map Note.message⟩

/-- The read of the output register is not a write of the input register. -/
theorem calls_getOutputs (link : Link σ) (logged : Logged σ) :
    ∃ device, (link.logged.getOutputs logged).2 = ⟨device, logged.calls⟩ := by
  obtain ⟨device, calls⟩ := logged
  exact ⟨_, rfl⟩

/-- Neither is a clock pulse. -/
theorem calls_stepClock (link : Link σ) (logged : Logged σ) :
    ∃ device, (link.logged.stepClock logged).2 = ⟨device, logged.calls⟩ := by
  obtain ⟨device, calls⟩ := logged
  exact ⟨_, rfl⟩

/-- A write of the input register is taken down with its outcome. -/
theorem setInputs_logged (link : Link σ) (bits : UInt16) (logged : Logged σ) :
    ∃ result device,
      link.logged.setInputs bits logged = (result, ⟨device, logged.calls.push result⟩) := by
  obtain ⟨device, calls⟩ := logged
  exact ⟨_, _, rfl⟩

section Poll

variable (link : Link σ) {byte : UInt8} {host : Host} (logged : Logged σ) (bus : Peripheral)

/-- Holding the execution phase pulses the clock. -/
theorem execution_held (hphase : host.phase = .execute) :
    Execution byte host logged.calls bus
      ((⟨host, logged, bus⟩ : Rig (Logged σ)).exchange link.logged .execute .held byte) := by
  obtain ⟨found, steps, lines, hpulse⟩ :=
    Rig.pulse_eq link.logged .execute (⟨host, logged, bus⟩ : Rig (Logged σ))
  obtain ⟨last, hlast⟩ := calls_stepClock link logged
  show Execution byte host logged.calls bus
    ((⟨host, logged, bus⟩ : Rig (Logged σ)).pulse link.logged .execute)
  rw [hpulse, hlast, ← hphase]
  exact .held _ steps last lines hphase

/-- Entering the execution phase serves the transaction, if the stores can, and writes the input
register. If that write fails the transaction has been served all the same, and the host is still in
front of the phase. -/
theorem execution_entered (hphase : host.phase ≠ .execute) :
    Execution byte host logged.calls bus
      ((⟨host, logged, bus⟩ : Rig (Logged σ)).exchange link.logged .execute .entered byte) := by
  show Execution byte host logged.calls bus
    ((((⟨host, logged, bus⟩ : Rig (Logged σ)).execute byte).andThen fun _ rig =>
      rig.sendInputs link.logged).andThen fun _ rig => rig.pulse link.logged .execute)
  obtain ⟨result, next, notes, hresolve⟩ : ∃ result next notes,
      bus.resolve (host.request byte) = ⟨result, next, notes⟩ := ⟨_, _, _, rfl⟩
  cases result with
  | error fault =>
      obtain ⟨more, hfailed⟩ := Rig.execute_failed logged hresolve
      rw [Rig.execute_of_error (by rw [hfailed])]
      exact .refused (.error fault) logged.device
  | ok value =>
      rw [Rig.execute_served logged hresolve]
      -- The phase is remembered behind the write, if the write does not fail.
      obtain ⟨written, after, hwrite⟩ := setInputs_logged link
        (host.committed (host.request byte) value).inputs.toBits logged
      simp only [Step.andThen, Rig.sendInputs_eq, hwrite, List.append_nil]
      cases written with
      | error error => exact .interrupted error after hphase hresolve
      | ok _ =>
          obtain ⟨found, steps, lines, hpulse⟩ := Rig.pulse_eq link.logged .execute
            ⟨host.committed (host.request byte) value, ⟨after, logged.calls.push (.ok ())⟩, next⟩
          obtain ⟨last, hlast⟩ := calls_stepClock link ⟨after, logged.calls.push (.ok ())⟩
          simp only [Except.mapError, hpulse, hlast]
          exact .entered _ steps last lines hphase hresolve

/-- A poll of an execution does one of the four: it is refused, it holds the phase, it enters the
phase, or it is interrupted behind the transaction. -/
theorem execution_poll (h : Executing link.logged byte ⟨host, logged, bus⟩) :
    Execution byte host logged.calls bus
      ((⟨host, logged, bus⟩ : Rig (Logged σ)).poll link.logged) := by
  obtain ⟨after, hafter⟩ := calls_getOutputs link logged
  obtain ⟨result, hread⟩ : ∃ result,
      link.logged.getOutputs logged = (result, ⟨after, logged.calls⟩) := ⟨_, by rw [← hafter]⟩
  cases result with
  | error error =>
      simp only [Rig.poll, hread]
      exact .refused _ after
  | ok word =>
      -- The word that was read spells an execute frame, so the register decodes as one.
      have hshown := h word (by rw [hread])
      simp only [Rig.poll, hread, hshown, Frame.register, Bool.false_eq_true, if_false]
      rcases observe_cases host ⟨byte, Phase.execute.state, false⟩ with
        ⟨violation, hobserve, -⟩ | ⟨phase, transition, hobserve, hstate, hwhich⟩
      · rw [hobserve]
        exact .refused _ after
      · obtain rfl : phase = .execute := by
          have hframe : Frame.mk phase byte = Frame.mk .execute byte :=
            register_injective (by rw [Frame.register, Frame.register, ← hstate])
          exact congrArg Frame.phase hframe
        rw [hobserve]
        -- Held when the host has been in the phase before, and entered when it has not.
        rcases hwhich with ⟨rfl, hphase⟩ | ⟨rfl, hphase, -⟩
        · exact execution_held link ⟨after, logged.calls⟩ bus hphase
        · exact execution_entered link ⟨after, logged.calls⟩ bus hphase

end Poll

/-! ### A stretch of polls -/

/-- A stretch of polls of one execution led from `rig` to `last`, left `notes`, and made `attempts`
to write the input register:

- `calls`: these are the writes of the stretch, in order;
- `failed`: all but the last of them failed;
- `commits`: one transaction was counted for each;
- `served`: the stores served the same request once for each, and nothing else, and so says the
  trace. -/
structure Repeats (byte : UInt8) (rig last : Rig (Logged σ)) (notes : List Note)
    (attempts : List (Except LinkError Unit)) : Prop where
  calls : last.device.calls.toList = rig.device.calls.toList ++ attempts
  failed : ∀ attempt ∈ attempts.dropLast, attempt ≠ .ok ()
  commits : last.host.commits = rig.host.commits + attempts.length
  served : ∃ more, serveAll
      (List.replicate attempts.length (rig.host.steps, rig.host.request byte)) rig.bus
        = ⟨.ok (), last.bus, more⟩
      ∧ entries notes = entries more

/-- Serving a request, and then others, is serving them all. -/
theorem serveAll_resolved {time : Nat} {request : Request} {value : UInt8}
    {bus next last : Peripheral} {notes more : List Note} {requests : List (Nat × Request)}
    (hserved : bus.resolve request = ⟨.ok value, next, notes⟩)
    (hrest : serveAll requests next = ⟨.ok (), last, more⟩) :
    serveAll ((time, request) :: requests) bus
      = ⟨.ok (), last, transferNotes bus request time notes value ++ more⟩ := by
  rw [serveAll, serve, hserved, Step.andThen_done, hrest]

namespace Repeats

variable {byte : UInt8} {rig last : Rig (Logged σ)} {notes : List Note}

/-- A stretch without a write serves nothing: no commit, no change of the stores and no transfer. -/
theorem nil_iff : Repeats byte rig last notes []
    ↔ last.device.calls = rig.device.calls ∧ last.host.commits = rig.host.commits
      ∧ last.bus = rig.bus ∧ entries notes = [] := by
  constructor
  · rintro ⟨hcalls, -, hcommits, more, hserved, hnotes⟩
    rw [List.append_nil, Array.toList_inj] at hcalls
    rw [List.length_nil, List.replicate_zero, serveAll, Step.done, Step.mk.injEq] at hserved
    obtain ⟨-, hbus, rfl⟩ := hserved
    exact ⟨hcalls, hcommits, hbus.symm, hnotes⟩
  · rintro ⟨hcalls, hcommits, hbus, hnotes⟩
    exact ⟨by rw [hcalls, List.append_nil], List.forall_mem_nil _, hcommits, [],
      by rw [hbus]; rfl, hnotes⟩

variable {host : Host} {logged : Logged σ} {bus : Peripheral}
  {attempts : List (Except LinkError Unit)}

/-- A poll that is turned away may stand in front of a stretch. -/
theorem refused {device : σ}
    (h : Repeats byte ⟨host, ⟨device, logged.calls⟩, bus⟩ last notes attempts) :
    Repeats byte ⟨host, logged, bus⟩ last notes attempts :=
  ⟨h.calls, h.failed, h.commits, h.served⟩

/-- A transaction behind which the write fails may stand in front of a stretch, and is one more. The
write is one more as well, so the two numbers stay equal. -/
theorem interrupted {error : LinkError} {device : σ} {value : UInt8} {next : Peripheral}
    {lines : List Note} (hserved : bus.resolve (host.request byte) = ⟨.ok value, next, lines⟩)
    (h : Repeats byte
      ⟨host.committed (host.request byte) value, ⟨device, logged.calls.push (.error error)⟩, next⟩
      last notes attempts) :
    Repeats byte ⟨host, logged, bus⟩ last
      (transferNotes bus (host.request byte) host.steps lines value ++ notes)
      (.error error :: attempts) where
  calls := by
    rw [h.calls, Array.toList_push, List.append_assoc, List.singleton_append]
  -- All writes but the last fail: if others follow, this one is not the last.
  failed := by
    cases attempts with
    | nil => exact List.forall_mem_nil _
    | cons attempt rest =>
        rw [List.dropLast_cons_cons, List.forall_mem_cons]
        exact ⟨nofun, h.failed⟩
  commits := by
    rw [h.commits, List.length_cons]
    show host.commits + 1 + attempts.length = host.commits + (attempts.length + 1)
    omega
  served := by
    obtain ⟨more, hall, hnotes⟩ := h.served
    refine ⟨transferNotes bus (host.request byte) host.steps lines value ++ more,
      serveAll_resolved hserved hall, ?_⟩
    rw [entries_append, entries_append, hnotes]

/-- A transaction behind which the write succeeds is the only one of the stretch that begins with
it, since the polls behind it make no write. -/
theorem entered {steps : Nat} {device : σ} {value : UInt8} {next : Peripheral} {lines : List Note}
    {logs : List Message} (hserved : bus.resolve (host.request byte) = ⟨.ok value, next, lines⟩)
    (h : Repeats byte
      ⟨{ host.committed (host.request byte) value with phase := .execute, steps },
        ⟨device, logged.calls.push (.ok ())⟩, next⟩
      last notes []) :
    Repeats byte ⟨host, logged, bus⟩ last
      (transferNotes bus (host.request byte) host.steps lines value ++ logs.map Note.message
        ++ notes) [.ok ()] := by
  obtain ⟨hcalls, hcommits, rfl, hnotes⟩ := nil_iff.mp h
  refine ⟨?_, List.forall_mem_nil _, hcommits, _, serveAll_resolved hserved rfl, ?_⟩
  · rw [hcalls, Array.toList_push]
  · simp only [entries_append, entries_messages, hnotes, List.append_nil]

end Repeats

/-- Once the host holds the execution phase, it serves nothing, whatever calls fail. Only reads and
pulses are left then, and neither reaches the stores. -/
theorem repeats_of_held (link : Link σ) {byte : UInt8} {n : Nat} {rig : Rig (Logged σ)}
    (h : Presents link.logged byte n rig) (hphase : rig.host.phase = .execute) :
    Repeats byte rig (rig.persist link.logged n).1 (rig.persist link.logged n).2 [] := by
  -- Induction on the polls: each is turned away or holds the phase, so it leaves the phase.
  induction n generalizing rig with
  | zero => exact Repeats.nil_iff.mpr ⟨rfl, rfl, rfl, rfl⟩
  | succ n ih =>
      obtain ⟨host, logged, bus⟩ := rig
      obtain ⟨hfirst, hrest⟩ := h
      have hpoll := execution_poll link logged bus hfirst
      simp only [Rig.persist]
      generalize Rig.poll link.logged _ = step at hpoll hrest ⊢
      cases hpoll with
      | refused result device => exact (ih hrest hphase).refused
      | held result steps device lines _ =>
          obtain ⟨hcalls, hcommits, hbus, hnotes⟩ := Repeats.nil_iff.mp (ih hrest hphase)
          refine Repeats.nil_iff.mpr ⟨hcalls, hcommits, hbus, ?_⟩
          rw [entries_append, entries_messages, hnotes, List.append_nil]
      | interrupted error device hentered _ => exact absurd hphase hentered
      | entered result steps device lines hentered _ => exact absurd hphase hentered

/-- A stretch of polls of one execution serves its transaction once for each write. The host enters
the phase when a write succeeds. Before that every poll that comes as far as the write has served
the transaction, and the next one serves it again. -/
theorem exists_repeats (link : Link σ) {byte : UInt8} {n : Nat} {rig : Rig (Logged σ)}
    (h : Presents link.logged byte n rig) :
    ∃ attempts,
      Repeats byte rig (rig.persist link.logged n).1 (rig.persist link.logged n).2 attempts := by
  induction n generalizing rig with
  | zero => exact ⟨[], Repeats.nil_iff.mpr ⟨rfl, rfl, rfl, rfl⟩⟩
  | succ n ih =>
      -- Once the host is in the phase, the polls that are left repeat it and serve nothing.
      by_cases hphase : rig.host.phase = .execute
      · exact ⟨[], repeats_of_held link h hphase⟩
      obtain ⟨host, logged, bus⟩ := rig
      obtain ⟨hfirst, hrest⟩ := h
      have hpoll := execution_poll link logged bus hfirst
      simp only [Rig.persist]
      generalize Rig.poll link.logged _ = step at hpoll hrest ⊢
      cases hpoll with
      | refused result device =>
          obtain ⟨attempts, hstretch⟩ := ih hrest
          exact ⟨attempts, hstretch.refused⟩
      | held result steps device lines hheld => exact absurd hheld hphase
      -- The request was served and the host did not learn the phase. The next poll serves it again.
      | interrupted error device _ hserved =>
          obtain ⟨attempts, hstretch⟩ := ih hrest
          exact ⟨.error error :: attempts, hstretch.interrupted hserved⟩
      | entered result steps device lines _ hserved =>
          exact ⟨[.ok ()], (repeats_of_held link hrest rfl).entered hserved⟩

/-- A stretch of polls of one execution serves its transaction as often as it writes the input
register. All of these writes but the last fail, so that the transaction is served at most once if
none of them fails, whatever reads and clock pulses fail. -/
theorem served_once_per_write (link : Link σ) {byte : UInt8} {n : Nat} {rig : Rig (Logged σ)}
    (h : Presents link.logged byte n rig) :
    ∃ attempts,
      Repeats byte rig (rig.persist link.logged n).1 (rig.persist link.logged n).2 attempts
        ∧ ((∀ attempt ∈ attempts, attempt = .ok ()) →
          (rig.persist link.logged n).1.host.commits ≤ rig.host.commits + 1) := by
  obtain ⟨attempts, hstretch⟩ := exists_repeats link h
  refine ⟨attempts, hstretch, ?_⟩
  intro hwritten
  rw [hstretch.commits]
  have hfailed := hstretch.failed
  match attempts with
  | [] => exact Nat.le_succ _
  | [_] => exact Nat.le_refl _
  | first :: second :: rest =>
      -- The first of two writes has failed.
      have hfirst : first ∈ (first :: second :: rest).dropLast := by
        rw [List.dropLast_cons_cons]
        exact List.mem_cons_self
      exact absurd (hwritten first List.mem_cons_self) (hfailed first hfirst)

/-- A device that writes a byte to the output, and shows the execution twice. The write of the input
register that belongs to the execution fails. -/
def slipping : Scripted.Tape where
  outputs := [0x107, 0x200, 0x300, 0x441, 0x441]
  failures := [⟨.inputs, 3, .disconnected⟩]

/-- A fresh host behind the three polls that spell the transaction out. -/
def approaching {τ : Type} (link : Link τ) (device : τ) : Rig τ :=
  ((⟨{}, device, untouched⟩ : Rig τ).persist link 3).1

/-- A word of the execution phase shows the execution. -/
theorem executing_of_read {link : Link σ} {byte : UInt8} {rig : Rig σ} {word : UInt16}
    (hread : (link.getOutputs rig.device).1 = .ok word)
    (hshown : OutputRegister.ofBits word = (Frame.mk .execute byte).register) :
    Executing link byte rig := by
  intro other hother
  rw [hread, Except.ok.injEq] at hother
  rw [← hother, hshown]

/-- The two polls of the execution write the input register twice, and serve the transaction for
each. -/
theorem served_once_per_write_slipping :
    Presents Scripted.link.logged 0x41 2 (approaching Scripted.link.logged ⟨slipping, #[]⟩)
      ∧ Repeats 0x41 (approaching Scripted.link.logged ⟨slipping, #[]⟩)
        ((approaching Scripted.link.logged ⟨slipping, #[]⟩).persist Scripted.link.logged 2).1
        ((approaching Scripted.link.logged ⟨slipping, #[]⟩).persist Scripted.link.logged 2).2
        [.error .disconnected, .ok ()] := by
  have hpresents :
      Presents Scripted.link.logged 0x41 2 (approaching Scripted.link.logged ⟨slipping, #[]⟩) :=
    ⟨executing_of_read rfl rfl, executing_of_read rfl rfl, trivial⟩
  obtain ⟨attempts, hstretch, -⟩ := served_once_per_write Scripted.link hpresents
  have hcalls : [.ok (), .ok (), .ok ()] ++ attempts
      = [.ok (), .ok (), .ok ()] ++ [.error .disconnected, .ok ()] := hstretch.calls.symm
  obtain rfl := List.append_cancel_left hcalls
  exact ⟨hpresents, hstretch⟩

/-- Both polls of the execution serve the transaction: the byte is written twice. -/
theorem served_twice :
    Presents Scripted.link 0x41 2 (approaching Scripted.link slipping)
      ∧ (approaching Scripted.link slipping).host.commits = 0
      ∧ ((approaching Scripted.link slipping).persist Scripted.link 2).1.host.commits = 2
      ∧ ((approaching Scripted.link slipping).persist Scripted.link 2).1.bus.channel.output
        = #[0x41, 0x41] :=
  ⟨⟨executing_of_read rfl rfl, executing_of_read rfl rfl, trivial⟩, rfl, rfl, rfl⟩

end TapeBench.Serial
