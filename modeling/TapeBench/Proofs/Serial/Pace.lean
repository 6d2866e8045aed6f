import TapeBench.Proofs.Course
import TapeBench.Proofs.Serial.Budget
import TapeBench.Proofs.Serial.Inputs

/-!
# `TapeBench.Proofs.Serial.Pace`: four clock pulses for each transaction

A transaction goes through four phases, and one poll serves one phase. So whatever the device does,
a host that has served some transactions has pulsed the clock four times for each of them. The
pulses of the transaction that is under way go into the invariant, by the phase that was served
last.

* `counts_poll`: what the host counts at a poll, whether it fails or not.
* `commits_polls`: the host counts the transfers in the trace.
* `Host.Paced`, `paced_polls`: the host has pulsed the clock often enough, behind every sequence of
  polls.
-/

set_option autoImplicit false

namespace TapeBench.Serial

variable {σ : Type} {link : Link σ}

/-! ### What the host counts -/

namespace Rig

/-- A clock pulse is counted if it succeeds. -/
theorem counts_pulse (link : Link σ) (phase : Phase) (rig : Rig σ) :
    Ticks rig.host.steps (rig.pulse link phase).state.host.steps
      ∧ (rig.pulse link phase).state.host.commits = rig.host.commits := by
  obtain ⟨host, device, bus⟩ := rig
  simp only [pulse]
  obtain ⟨result, after⟩ := link.stepClock device
  cases result with
  | ok _ => exact ⟨.inr rfl, rfl⟩
  | error _ => exact ⟨.inl rfl, rfl⟩

/-- Serving a phase counts the transfers in the trace and pulses no clock. If the transaction fails,
there is no transfer and nothing is counted. -/
theorem counts_enter (phase : Phase) (byte : UInt8) (rig : Rig σ) :
    (rig.enter phase byte).state.host.steps = rig.host.steps
      ∧ (rig.enter phase byte).state.host.commits
        = rig.host.commits + (transfers (entries (rig.enter phase byte).notes)).length := by
  cases phase with
  | idle | opcode | addressHigh | addressLow => exact ⟨rfl, rfl⟩
  -- A transaction is counted where it is traced, and one that fails is neither.
  | execute =>
      rw [enter]
      obtain ⟨result, last, notes, hexecute⟩ :
          ∃ result last notes, rig.execute byte = ⟨result, last, notes⟩ := ⟨_, _, _, rfl⟩
      cases result with
      | ok _ =>
          obtain ⟨value, next, rfl, htransfers⟩ := execute_of_ok hexecute
          rw [hexecute, htransfers]
          exact ⟨rfl, rfl⟩
      | error fault =>
          rw [execute_of_error (congrArg Step.result hexecute)]
          exact ⟨rfl, rfl⟩

/-- Transfers are counted behind an action that only adds log lines, if they were in front of it. A
write of the register and a clock pulse are such actions, whether they succeed or fail. -/
theorem commits_andThen {α β : Type} {commits : Nat} {first : Step (Rig σ) α}
    {next : α → Rig σ → Step (Rig σ) β}
    (hfirst : first.state.host.commits = commits + (transfers (entries first.notes)).length)
    (hnext : ∀ value, (next value first.state).state.host.commits = first.state.host.commits
      ∧ entries (next value first.state).notes = []) :
    (first.andThen next).state.host.commits
      = commits + (transfers (entries (first.andThen next).notes)).length := by
  obtain ⟨result, middle, notes⟩ := first
  cases result with
  | error fault => exact hfirst
  | ok value =>
      obtain ⟨hcommits, hsilent⟩ := hnext value
      show (next value middle).state.host.commits
        = commits + (transfers (entries (notes ++ (next value middle).notes))).length
      rw [entries_append, hsilent, List.append_nil, hcommits]
      exact hfirst

/-- Serving an observation counts the transfers in the trace, and a clock pulse at most. Both
counters go up by what has happened, also if a later part of it fails: a transfer that was traced is
counted even if the write behind it is not made. -/
theorem counts_exchange (link : Link σ) (phase : Phase) (transition : Transition) (byte : UInt8)
    (rig : Rig σ) :
    Ticks rig.host.steps (rig.exchange link phase transition byte).state.host.steps
      ∧ (rig.exchange link phase transition byte).state.host.commits = rig.host.commits
        + (transfers (entries (rig.exchange link phase transition byte).notes)).length := by
  obtain ⟨host, device, bus⟩ := rig
  obtain ⟨opcode, addrHigh, addrLow, hlatch⟩ := exists_latches host phase byte
  simp only [exchange, hlatch]
  let latched : Rig σ := ⟨{ host with opcode, addrHigh, addrLow }, device, bus⟩
  cases transition with
  | held =>
      obtain ⟨hsteps, hcommits⟩ := latched.counts_pulse link phase
      refine ⟨hsteps, hcommits.trans ?_⟩
      rw [(quiet_pulse link phase latched).silent]
      rfl
  | entered =>
      obtain ⟨hentered, hserved⟩ := latched.counts_enter phase byte
      -- Behind the transfer are a write of the register and a pulse, and both may fail.
      let sent := (latched.enter phase byte).andThen fun _ rig => rig.sendInputs link
      have hsteps : sent.state.host.steps = host.steps := by
        refine Step.state_andThen (P := fun rig : Rig σ => rig.host.steps = host.steps) hentered ?_
        intro _
        rw [sendInputs_eq]
        exact hentered
      have hcommits : sent.state.host.commits
          = host.commits + (transfers (entries sent.notes)).length := by
        refine commits_andThen hserved ?_
        intro _
        rw [sendInputs_eq]
        exact ⟨rfl, rfl⟩
      obtain ⟨hticks, hkept⟩ := sent.state.counts_pulse link phase
      rw [hsteps] at hticks
      constructor
      · refine Step.state_andThen (P := fun rig : Rig σ => Ticks host.steps rig.host.steps)
          (.inl hsteps) ?_
        intro _
        exact hticks
      · refine commits_andThen hcommits ?_
        intro _
        exact ⟨hkept, (quiet_pulse link phase sent.state).silent⟩

/-- A poll counts the transfers in the trace, and a clock pulse at most, whatever becomes of the
poll. -/
theorem counts_poll (link : Link σ) (rig : Rig σ) :
    Ticks rig.host.steps (rig.poll link).state.host.steps
      ∧ (rig.poll link).state.host.commits
        = rig.host.commits + (transfers (entries (rig.poll link).notes)).length := by
  obtain ⟨host, device, bus⟩ := rig
  simp only [poll]
  split
  · exact ⟨.inl rfl, rfl⟩
  · split
    · exact ⟨.inl rfl, rfl⟩
    · split
      · exact ⟨.inl rfl, rfl⟩
      · exact counts_exchange link _ _ _ ⟨host, _, bus⟩

end Rig

/-- Behind a sequence of polls, the host has counted the transfers in the trace. So its count of
commits says as much about the trace as about the host. -/
theorem commits_polls {n : Nat} {rig last : Rig σ} {notes : List Note}
    (h : Polls link n rig notes last) :
    last.host.commits = rig.host.commits + (transfers (entries notes)).length := by
  induction h with
  | refl => rfl
  | @cons n rig middle last notes more running taken _ ih =>
      obtain ⟨phase, hpoll⟩ := exists_running_of_polled running taken
      have hfirst := (rig.counts_poll link).2
      rw [hpoll] at hfirst
      simp only at hfirst
      rw [ih, hfirst, entries_append, transfers_append, List.length_append]
      omega

/-! ### The pace -/

/-- Number of the phases of a transaction that were served, up to this one and short of the last. -/
def Phase.progress : Phase → Nat
  | idle | execute => 0
  | opcode => 1
  | addressHigh => 2
  | addressLow => 3

/-- A new phase is one more of the transaction, and the execution phase the last of four. -/
theorem Phase.progress_of_enters {phase next : Phase} (h : phase.enters next = true) :
    next.progress + (if next = .execute then 4 else 0) ≤ phase.progress + 1 := by
  revert h
  cases phase <;> cases next <;> decide

/-- The host has pulsed the clock four times for each transaction that it has served, and once for
each phase of the transaction that is under way. -/
def Host.Paced (host : Host) : Prop :=
  4 * host.commits + host.phase.progress ≤ host.steps

variable {rig last : Rig σ} {phase : Phase} {notes : List Note}

/-- A phase that a poll finds is held, or it is a new one. Only a new execution phase is counted, so
a transaction is not counted again while its phase lasts. -/
theorem Rig.running_cases (h : rig.poll link = ⟨.ok (.running phase), last, notes⟩) :
    last.host.phase = phase
      ∧ (rig.host.phase = phase ∧ last.host.commits = rig.host.commits
        ∨ rig.host.phase.enters phase = true
          ∧ last.host.commits = rig.host.commits + if phase = .execute then 1 else 0) := by
  obtain ⟨host, device, bus⟩ := rig
  simp only [poll] at h
  -- The read has to succeed and to show a chip that is not halted.
  split at h
  · cases h
  rename_i bits after hread
  split at h
  · cases h
  rcases observe_cases host (.ofBits bits) with ⟨violation, hobserve, -⟩
    | ⟨shown, transition, hobserve, -, ⟨rfl, hheld⟩ | ⟨rfl, -, henters⟩⟩
  · simp only [hobserve] at h
    cases h
  · simp only [hobserve, exchange] at h
    obtain ⟨hfound, rfl, -⟩ := pulse_of_ok h
    cases hfound
    refine ⟨rfl, .inl ⟨hheld, ?_⟩⟩
    show (host.latch phase _).commits = host.commits
    cases phase <;> rfl
  · simp only [hobserve] at h
    obtain ⟨served, front, henter, hfound, rfl, -⟩ := exchange_of_ok h
    cases hfound
    refine ⟨rfl, .inr ⟨henters, ?_⟩⟩
    -- To enter the execute phase is to commit. The other phases latch a byte of the request.
    by_cases hexecute : phase = .execute
    · subst hexecute
      obtain ⟨value, next, rfl, -⟩ := execute_of_ok henter
      rfl
    · rw [enter_quiet hexecute] at henter
      cases henter
      simp only [if_neg hexecute]
      obtain ⟨opcode, addrHigh, addrLow, hlatch⟩ :=
        exists_latches host phase (OutputRegister.ofBits bits).busOut
      rw [hlatch]
      rfl

/-- A poll that finds the device running keeps the pace. Each new phase takes a pulse and is one
step of the transaction, and at the fourth the progress is traded for a commit. -/
theorem paced_poll (hpaced : rig.host.Paced)
    (h : rig.poll link = ⟨.ok (.running phase), last, notes⟩) : last.host.Paced := by
  unfold Host.Paced at hpaced ⊢
  have hsteps := Rig.steps_poll h
  obtain ⟨rfl, ⟨hheld, hcommits⟩ | ⟨henters, hcommits⟩⟩ := Rig.running_cases h
  · rw [hheld] at hpaced
    omega
  · have hprogress := Phase.progress_of_enters henters
    by_cases hexecute : last.host.phase = .execute
    · rw [if_pos hexecute] at hcommits hprogress
      omega
    · rw [if_neg hexecute] at hcommits hprogress
      omega

/-- Every sequence of polls keeps the pace. -/
theorem paced_polls {n : Nat} (hpaced : rig.host.Paced) (h : Polls link n rig notes last) :
    last.host.Paced := by
  induction h with
  | refl => exact hpaced
  | cons running taken _ ih =>
      obtain ⟨phase, hpoll⟩ := exists_running_of_polled running taken
      exact ih (paced_poll hpaced hpoll)

end TapeBench.Serial
