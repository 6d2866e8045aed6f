import TapeBench.Proofs.Ending
import TapeBench.Proofs.Replay

/-!
# `TapeBench.Proofs.Trace`: the trace of every run is a faithful record

The three drivers leave their entries at different points: before a read, behind it, or before a
write of a register that may fail. None of this shows. Whatever the device does, and however the run
ends, its trace can be replayed on fresh stores and says of the run what the verdict says. The
replay reaches the stores that the run ended with, whether the run was graded or not: a trace that
drops a transfer is no faithful record, not even of a run that times out.

A cycle leaves its entries in parts, and each part leaves an account or is quiet. The account of a
cycle is put together from those, and that of a run from its cycles.

* `Clocking.run_faithful`: runs of a clocking whose cycles account for their transfers.
* `Addressed.accounts_cycle`, `SeparatePin.accounts_cycle`, `Serial.accounts_poll`: one cycle of
  each encoding.
* `run_trace_faithful`: every run over every connection.
-/

set_option autoImplicit false

namespace TapeBench

open Bus (Op Request)
open Serial (transferred)

namespace Transfer

/-- The transfers are in different cycles. -/
def Before (first second : Transfer) : Prop :=
  first.time < second.time

/-- The transfers are in different cycles, or they are the write and the read of one. -/
def BeforeOrWith (first second : Transfer) : Prop :=
  first.time < second.time
    ∨ first.time = second.time ∧ first.request.op = .writeIo ∧ second.request.op = .readIo

end Transfer

/-- A journal that keeps the trace and is empty gains the trace that is recorded. -/
theorem Journal.events_record_of_nil {journal : Journal} (h : journal.Traces)
    (hevents : journal.events = []) (notes : List Note) :
    (journal.record notes).events = entries notes := by
  rw [events_record h, hevents]
  rfl

/-- A run of a clocking whose cycles account for their transfers leaves a faithful record. The
accounts of the cycles are joined up to the cycle that ends the run, and a cycle that faults
accounts for what it served before. -/
theorem Clocking.run_faithful {σ S : Type} {clocking : Clocking σ S} {stores : S → Peripheral}
    {order : Transfer → Transfer → Prop}
    (haccountable : Accountable clocking.halted clocking.cycle stores clocking.cycles order)
    (houtput : ∀ state, clocking.output state = (stores state).channel.output)
    (htally : ∀ state, clocking.tally state = (stores state).tally) {start : S}
    (hzero : clocking.cycles start = 0) (case : Case) (budget : Nat) {journal : Journal}
    (htraces : journal.Traces) (hevents : journal.events = []) :
    Faithful order case (fun n => ∃ last, HaltsAt clocking.halted clocking.cycle start n last)
      (stores start) (clocking.ending stores budget start).stores
      (clocking.run case budget start journal).journal.events
      (clocking.run case budget start journal).verdict := by
  rw [run]
  by_cases hstart : clocking.halted start = true
  · rw [if_pos hstart, hevents,
      ending_of_loop stores (cyclesUntilHalted_halted hstart budget journal)]
    exact (Account.nil order 0 0 _).faithful_of_ungraded case _ rfl
  · rw [if_neg hstart]
    -- The loop has three ends, and only the first of them is graded.
    obtain ⟨n, last, notes, -, hcycled, hend⟩ :=
      cyclesUntilHalted_cases clocking.halted clocking.cycle budget start journal
    obtain ⟨haccount, htime⟩ := haccountable.cycled hcycled
    rcases hend with ⟨hlast, hrun⟩ | ⟨-, -, hrun⟩ | ⟨hlast, -, fault, stuck, more, hfault, hrun⟩
    · rw [ending_of_loop stores hrun, hrun]
      simp only
      rw [Case.events_conclude (htraces.record notes), Journal.events_record_of_nil htraces hevents,
        htime, hzero, Nat.zero_add, houtput, htally]
      exact haccount.faithful_of_graded case ⟨last, haltsAt_iff.mpr ⟨hlast, notes, hcycled⟩⟩
    · rw [ending_of_loop stores hrun, hrun]
      simp only
      rw [Journal.events_record_of_nil htraces hevents]
      exact haccount.faithful_of_ungraded case _ rfl
    · rw [ending_of_loop stores hrun, hrun]
      simp only
      rw [Journal.events_record_of_nil htraces hevents]
      obtain ⟨hall, hungraded⟩ := haccountable.faulted hcycled hlast hfault
      exact hall.faithful_of_ungraded case _ hungraded

/-! ### The addressed bus -/

namespace Addressed

variable {σ : Type}

/-- Serving a sampled request accounts for it. A request for nothing leaves nothing, and neither
does one that faults. -/
theorem accounts_commit (pins : Device σ) (cycle : Nat) (request : Request) (device : σ)
    (bus : Peripheral) :
    (commit pins cycle request device bus).Accounts Prod.snd Transfer.Before cycle bus := by
  rw [commit]
  split
  · exact .quiet ⟨rfl, rfl, ungraded_of_ok ()⟩
  · obtain ⟨result, next, notes, hresolve⟩ :
        ∃ result next notes, bus.resolve request = ⟨result, next, notes⟩ := ⟨_, _, _, rfl⟩
    obtain ⟨lines, rfl⟩ := Peripheral.exists_lines_of_resolve hresolve
    simp only [hresolve]
    -- A request that fails leaves the stores alone and notes no transfer. One that is served is the
    -- one transfer of the cycle.
    cases result with
    | error fault =>
        refine .quiet ⟨?_, entries_messages lines, ?_⟩
        · have hstate := Peripheral.state_of_resolve_error (congrArg Step.result hresolve)
          rw [hresolve] at hstate
          exact hstate
        · rw [Peripheral.exhausted_of_resolve hresolve]
          exact ungraded_of_error rfl
    | ok value =>
        refine ⟨?_, ungraded_of_ok ()⟩
        show Account _ _ _ _ (entries (_ ++ servedEvents cycle request value _)) next
        rw [entries_append, entries_messages, Serial.entries_servedEvents, List.nil_append]
        exact .single _ cycle hresolve

/-- The falling half of a cycle accounts for the request that it serves. What it does besides is to
settle the device, which only logs. -/
theorem accounts_fall (pins : Device σ) (request : Request) (rig : Rig σ) :
    (rig.fall pins request).Accounts Rig.bus Transfer.Before rig.driver.cycles rig.bus := by
  obtain ⟨⟨phase, settleNs, cycles⟩, device, bus⟩ := rig
  have hcommit := accounts_commit pins cycles request (pins.setClock false device) bus
  obtain ⟨result, ⟨after, next⟩, notes, hserved⟩ : ∃ result state notes,
      commit pins cycles request (pins.setClock false device) bus = ⟨result, state, notes⟩ :=
    ⟨_, _, _, rfl⟩
  rw [hserved] at hcommit
  -- The settling behind the commit adds lines of the log, and nothing to the trace.
  cases result with
  | error fault =>
      simp only [Rig.fall, hserved]
      exact ⟨hcommit.account, ungraded_of_error (hcommit.ungraded fault rfl)⟩
  | ok value =>
      simp only [Rig.fall, hserved]
      refine ⟨?_, ungraded_of_ok _⟩
      show Account _ _ _ _ (entries (notes ++ (pins.settle settleNs after).2)) next
      rw [entries_append, ClockedDevice.entries_settle, List.append_nil]
      exact hcommit.account

/-- A falling half that does not fault ends with a low clock. -/
theorem low_of_fall {pins : Device σ} {request : Request} {rig : Rig σ} {reached : ClockPhase}
    (h : (rig.fall pins request).result = .ok reached) : reached = .low := by
  obtain ⟨result, last, notes, hfall⟩ :
      ∃ result last notes, rig.fall pins request = ⟨result, last, notes⟩ := ⟨_, _, _, rfl⟩
  rw [hfall] at h
  simp only at h
  subst h
  exact (cycles_fall hfall).2

/-- A cycle accounts for the request that it serves, also if it begins behind a rising edge. In both
cases there is one falling half in it, at the end. -/
theorem accounts_cycle (pins : Device σ) (rig : Rig σ) :
    (rig.cycle pins).Accounts Rig.bus Transfer.Before rig.driver.cycles rig.bus := by
  obtain ⟨⟨phase, settleNs, cycles⟩, device, bus⟩ := rig
  rw [Rig.cycle]
  cases phase with
  | low =>
      -- The rising half is quiet, and the falling half serves what it sampled.
      let rig : Rig σ := ⟨⟨.low, settleNs, cycles⟩, device, bus⟩
      have hrise : (rig.rise pins).Quiet Rig.bus bus :=
        ⟨rfl, ClockedDevice.entries_settle _ settleNs (pins.setClock true device),
          ungraded_of_ok _⟩
      have hfall := accounts_fall pins (pins.request (pins.setClock true device))
        (rig.rise pins).state
      refine .quiet_andThen hrise ?_
      intro reached hreached
      cases hreached
      refine .andThen_quiet hfall ?_
      intro _ _
      exact ⟨rfl, rfl, ungraded_of_ok ()⟩
  | high request =>
      have hfall := accounts_fall pins request ⟨⟨.high request, settleNs, cycles⟩, device, bus⟩
      refine .andThen_quiet hfall ?_
      intro reached hreached
      obtain rfl := low_of_fall hreached
      exact ⟨rfl, rfl, ungraded_of_ok ()⟩

/-- Every device on the addressed bus leaves an account with every cycle. -/
theorem accountable (pins : Device σ) :
    Accountable pins.clocking.halted pins.clocking.cycle Rig.bus pins.clocking.cycles
      Transfer.Before where
  time_order := fun _ _ h => h
  accounts := fun rig _ => accounts_cycle pins rig
  next_time := fun rig next notes _ h => clocking_counts pins rig next notes h

/-- The trace of a run over the addressed bus is a faithful record, from the stores of the case to
those of the ending. No two transfers share a cycle (`Transfer.Before`). -/
theorem run_faithful (pins : Device σ) {config : Config} {case : Case} {bus : Peripheral}
    (hstores : case.stores config = .ok bus) (device : σ) (level? : Option Level) :
    Faithful Transfer.Before case
      (fun n => ∃ last, HaltsAt pins.clocking.halted pins.clocking.cycle
        (pins.ready config bus device) n last)
      bus
      (pins.clocking.ending Rig.bus config.cycleBudget.toNat (pins.ready config bus device)).stores
      (pins.run config case device (.keeping true level?)).journal.events
      (pins.run config case device (.keeping true level?)).verdict := by
  have htraces := Journal.traces_keeping level?
  obtain ⟨opening, hopening, hrun⟩ := pins.run_eq hstores device (.keeping true level?)
  rw [hrun]
  refine Clocking.run_faithful (accountable pins) (fun _ => rfl) (fun _ => rfl) rfl case _
    (htraces.record opening) ?_
  rw [Journal.events_record_of_nil htraces rfl, hopening]

end Addressed

/-! ### Separate pins -/

namespace SeparatePin

open Memory (Rom Ram)

variable {σ : Type}

variable (program : Rom)

/-- Collecting a byte accounts for it as a write. -/
theorem accounts_collect (sampled : Sample) (rig : Rig σ) :
    (rig.collect sampled).Accounts (Rig.stores program) Transfer.BeforeOrWith rig.driver.cycles
      (rig.stores program) := by
  obtain ⟨⟨settleNs, cycles, tally⟩, device, channel⟩ := rig
  simp only [Rig.collect]
  split
  · exact ⟨.single _ cycles (show Peripheral.resolve _ ⟨.writeIo, 0, sampled.outVal⟩ = _ from rfl),
      ungraded_of_ok ()⟩
  · exact .quiet ⟨rfl, rfl, ungraded_of_ok ()⟩

/-- Collecting a byte leaves no other transfer than a write. -/
theorem op_of_collect (sampled : Sample) (rig : Rig σ) :
    ∀ transfer ∈ transfers (entries (rig.collect sampled).notes),
      transfer.request.op = .writeIo := by
  obtain ⟨⟨settleNs, cycles, tally⟩, device, channel⟩ := rig
  simp only [Rig.collect]
  split
  · intro transfer htransfer
    rw [List.mem_singleton.mp htransfer]
  · intro transfer htransfer
    cases htransfer

/-- Feeding a byte leaves the entries of a read, with the fallback in front if it was needed. A read
that faults leaves none. -/
theorem entries_feed (pins : Device σ) (sampled : Sample) (rig : Rig σ) :
    entries (rig.feed pins sampled).notes
      = match sampled.inReading, rig.channel.read.result with
        | true, .ok byte => transferred rig.channel.fallsBack rig.driver.cycles ⟨.readIo, 0, 0⟩ byte
        | _, _ => [] := by
  obtain ⟨⟨settleNs, cycles, tally⟩, device, channel⟩ := rig
  simp only [Rig.feed]
  cases sampled.inReading with
  | false => rfl
  | true =>
      rcases channel.read_cases with ⟨byte, next, lines, hread⟩ | ⟨hfalls, hread⟩
      · simp only [hread, if_true, Step.done]
        rw [entries_append, entries_append, entries_messages]
        cases channel.fallsBack <;> rfl
      · simp only [hread, hfalls, if_true]
        rfl

/-- Feeding a byte accounts for it as a read, in front of stores that hold the program of the run
and no data. -/
theorem accounts_feed (pins : Device σ) (sampled : Sample) (rig : Rig σ) :
    (rig.feed pins sampled).Accounts (Rig.stores program) Transfer.BeforeOrWith rig.driver.cycles
      (rig.stores program) := by
  have hentries := entries_feed pins sampled rig
  obtain ⟨⟨settleNs, cycles, tally⟩, device, channel⟩ := rig
  cases hreading : sampled.inReading with
  | false =>
      rw [hreading] at hentries
      refine .quiet ⟨?_, hentries, ?_⟩
      · simp only [Rig.feed, hreading]
        rfl
      · simp only [Rig.feed, hreading]
        exact ungraded_of_ok ()
  | true =>
      rw [hreading] at hentries
      rcases channel.read_cases with ⟨byte, next, lines, hread⟩ | ⟨hfalls, hread⟩
      · -- The pins read the channel directly. To the stores this is a read served at address zero.
        have hresolve : Peripheral.resolve ⟨program, .zero, channel, tally⟩ ⟨.readIo, 0, 0⟩
            = ⟨.ok byte, ⟨program, .zero, next, tally.record .readIo⟩,
                lines.map Note.message ++ [.message (.served .readIo 0 0 byte)]⟩ := by
          simp only [Peripheral.resolve, hread]
          rfl
        have haccount := Account.single Transfer.BeforeOrWith cycles hresolve
        simp only [Rig.feed, hreading, hread, if_true, Step.done] at hentries ⊢
        refine ⟨?_, ungraded_of_ok ()⟩
        rw [hentries]
        exact haccount
      · simp only [Rig.feed, hreading, hread, if_true] at hentries ⊢
        exact .quiet ⟨rfl, hentries, ungraded_of_error rfl⟩

/-- Feeding a byte leaves no other transfer than a read. -/
theorem op_of_feed (pins : Device σ) (sampled : Sample) (rig : Rig σ) :
    ∀ transfer ∈ transfers (entries (rig.feed pins sampled).notes),
      transfer.request.op = .readIo := by
  rw [entries_feed]
  split
  · intro transfer htransfer
    rw [transfers_transferred] at htransfer
    rw [List.mem_singleton.mp htransfer]
  · intro transfer htransfer
    cases htransfer

/-- The end of a cycle only counts it. -/
theorem quiet_finish (pins : Device σ) (rig : Rig σ) :
    (rig.finish pins).Quiet (Rig.stores program) (rig.stores program) := by
  obtain ⟨⟨settleNs, cycles, tally⟩, device, channel⟩ := rig
  exact ⟨rfl, ClockedDevice.entries_settle _ settleNs device, ungraded_of_ok ()⟩

/-- A cycle accounts for the byte that it collects and for the byte that it feeds. Both bear the
time of the cycle, with the write in front of the read (`Transfer.BeforeOrWith`). -/
theorem accounts_cycle (pins : Device σ) (rig : Rig σ) :
    (rig.cycle pins).Accounts (Rig.stores program) Transfer.BeforeOrWith rig.driver.cycles
      (rig.stores program) := by
  obtain ⟨driver, device, channel⟩ := rig
  let rig : Rig σ := ⟨driver, device, channel⟩
  have hrise : (rig.rise pins).Quiet (Rig.stores program) (rig.stores program) :=
    ⟨rfl, ClockedDevice.entries_settle _ driver.settleNs (pins.setClock true device),
      ungraded_of_ok _⟩
  rw [Rig.cycle]
  refine .quiet_andThen hrise ?_
  intro sampled _
  rw [← Step.andThen_assoc]
  let lowered : Rig σ := (rig.rise pins).state.lower pins
  have hcollect := accounts_collect program sampled lowered
  have hfeed := accounts_feed program pins sampled (lowered.collect sampled).state
  rw [cycles_collect] at hfeed
  refine .andThen_quiet (.andThen hcollect (fun _ _ => hfeed) ?_) ?_
  · -- Both transfers are in the same cycle, and the write comes first.
    intro _ _ earlier hearlier later hlater
    have hfirst := hcollect.account.within earlier hearlier
    have hsecond := hfeed.account.within later hlater
    exact .inr ⟨by omega, op_of_collect sampled lowered earlier hearlier,
      op_of_feed pins sampled _ later hlater⟩
  · intro _ _
    exact quiet_finish program pins _

/-- Every device with separate pins leaves an account with every cycle. -/
theorem accountable (pins : Device σ) :
    Accountable pins.clocking.halted pins.clocking.cycle (Rig.stores program) pins.clocking.cycles
      Transfer.BeforeOrWith where
  time_order := fun _ _ h => .inl h
  accounts := fun rig _ => accounts_cycle program pins rig
  next_time := fun rig next notes _ h => clocking_counts pins rig next notes h

/-- The trace of a run over separate pins is a faithful record. A write and a read may share a
cycle, in this order (`Transfer.BeforeOrWith`). The stores stand for what the driver itself keeps,
so their data is empty throughout. -/
theorem run_faithful (pins : Device σ) {config : Config} {case : Case} {program : Rom}
    (hload : Rom.load case.program = .ok program) (device : σ) (level? : Option Level) :
    Faithful Transfer.BeforeOrWith case
      (fun n => ∃ last, HaltsAt pins.clocking.halted pins.clocking.cycle
        (pins.ready config case program device) n last)
      ⟨program, .zero, .ofInput case.input (case.policy config .separatePin), {}⟩
      (pins.clocking.ending (Rig.stores program) config.cycleBudget.toNat
        (pins.ready config case program device)).stores
      (pins.run config case device (.keeping true level?)).journal.events
      (pins.run config case device (.keeping true level?)).verdict := by
  have htraces := Journal.traces_keeping level?
  obtain ⟨opening, hopening, hrun⟩ := pins.run_eq hload device (.keeping true level?)
  rw [hrun]
  refine Clocking.run_faithful (accountable program pins) (fun _ => rfl) (fun _ => rfl) rfl case _
    (htraces.record opening) ?_
  rw [Journal.events_record_of_nil htraces rfl, hopening]

end SeparatePin

/-! ### The serial link -/

namespace Serial

variable {σ : Type}

/-- Serving the request in the latches accounts for it, with the number of pulses so far for its
time. -/
theorem accounts_execute (byte : UInt8) (rig : Rig σ) :
    (rig.execute byte).Accounts Rig.bus Transfer.Before rig.host.steps rig.bus := by
  obtain ⟨host, device, bus⟩ := rig
  obtain ⟨result, next, notes, hresolve⟩ : ∃ result next notes,
      bus.resolve (host.request byte) = ⟨result, next, notes⟩ := ⟨_, _, _, rfl⟩
  obtain ⟨lines, rfl⟩ := Peripheral.exists_lines_of_resolve hresolve
  cases result with
  | ok value =>
      rw [Rig.execute_served device hresolve]
      refine ⟨?_, ungraded_of_ok ()⟩
      show Account _ _ _ _ (entries (transferNotes _ _ _ _ _)) next
      rw [entries_transferNotes]
      exact .single _ host.steps hresolve
  | error fault =>
      -- A read that fails has no fallback, so the host notes nothing about one.
      have hresult := congrArg Step.result hresolve
      have hstate := Peripheral.state_of_resolve_error hresult
      rw [hresolve] at hstate
      simp only [Rig.execute, hresolve, Peripheral.not_fallsBack_of_error hresult, Bool.and_false,
        Bool.false_eq_true, if_false, List.nil_append]
      refine .quiet ⟨hstate, entries_messages lines, ?_⟩
      rw [Peripheral.exhausted_of_resolve hresolve]
      exact ungraded_of_error rfl

/-- Entering a phase accounts for the request that it serves. Only the execution phase serves
one. -/
theorem accounts_enter (phase : Phase) (byte : UInt8) (rig : Rig σ) :
    (rig.enter phase byte).Accounts Rig.bus Transfer.Before rig.host.steps rig.bus := by
  cases phase with
  | execute => exact accounts_execute byte rig
  | idle | opcode | addressHigh | addressLow =>
      exact .quiet ⟨rfl, rfl, ungraded_of_ok ()⟩

/-- A call to the link is quiet, whether it fails or not. -/
theorem quiet_call {S α : Type} (stores : S → Peripheral) (outcome : Except LinkError α × S)
    {bus : Peripheral} (hkept : stores outcome.2 = bus) :
    (Link.call outcome []).Quiet stores bus := by
  obtain ⟨result, next⟩ := outcome
  cases result with
  | ok value => exact ⟨hkept, rfl, ungraded_of_ok value⟩
  | error error => exact ⟨hkept, rfl, ungraded_of_error rfl⟩

/-- Writing the input register leaves stores and trace alone. -/
theorem quiet_sendInputs (link : Link σ) {rig : Rig σ} {bus : Peripheral} (hbus : rig.bus = bus) :
    (rig.sendInputs link).Quiet Rig.bus bus := by
  obtain ⟨host, device, stores⟩ := rig
  simp only [Rig.sendInputs]
  exact .within (quiet_call _ _ hbus)

/-- So does raising the enable flag. -/
theorem quiet_enable (link : Link σ) {rig : Rig σ} {bus : Peripheral} (hbus : rig.bus = bus) :
    (rig.enable link).Quiet Rig.bus bus := by
  obtain ⟨host, device, stores⟩ := rig
  simp only [Rig.enable]
  exact quiet_sendInputs link hbus

/-- And so does a clock pulse. -/
theorem quiet_pulse (link : Link σ) (phase : Phase) (rig : Rig σ) :
    (rig.pulse link phase).Quiet Rig.bus rig.bus := by
  obtain ⟨host, device, bus⟩ := rig
  obtain ⟨result, next, hcall⟩ : ∃ result next, link.stepClock device = (result, next) :=
    ⟨_, _, rfl⟩
  simp only [Rig.pulse, hcall]
  cases result with
  | ok value => exact ⟨rfl, entries_messages _, ungraded_of_ok _⟩
  | error error => exact ⟨rfl, entries_messages _, ungraded_of_error rfl⟩

/-- Serving an observation accounts for the request that it serves, if there is one. That is so even
where the write or the pulse behind it fails: the transfer is then in the trace and in the stores.
-/
theorem accounts_exchange (link : Link σ) (phase : Phase) (transition : Transition) (byte : UInt8)
    (rig : Rig σ) :
    (rig.exchange link phase transition byte).Accounts Rig.bus Transfer.Before rig.host.steps
      rig.bus := by
  obtain ⟨host, device, bus⟩ := rig
  have hlatch : (host.latch phase byte).steps = host.steps := by cases phase <;> rfl
  cases transition with
  | held =>
      have hpulse := quiet_pulse link phase ⟨host.latch phase byte, device, bus⟩
      exact .quiet hpulse
  | entered =>
      have henter := accounts_enter phase byte ⟨host.latch phase byte, device, bus⟩
      simp only [hlatch] at henter
      -- Behind the transfer are a write of the register and a pulse, and both may fail.
      refine .andThen_quiet (.andThen_quiet henter ?_) ?_
      · intro _ _
        exact quiet_sendInputs link rfl
      · intro _ _
        exact quiet_pulse link phase _

/-- A poll accounts for the request that it serves, if there is one. To read the register and to
look at the phase serve nothing. -/
theorem accounts_poll (link : Link σ) (rig : Rig σ) :
    (rig.poll link).Accounts Rig.bus Transfer.Before rig.host.steps rig.bus := by
  obtain ⟨host, device, bus⟩ := rig
  simp only [Rig.poll]
  split
  · exact .quiet ⟨rfl, rfl, ungraded_of_error rfl⟩
  · split
    · exact .quiet ⟨rfl, rfl, ungraded_of_ok _⟩
    · split
      · exact .quiet ⟨rfl, rfl, ungraded_of_error rfl⟩
      · exact accounts_exchange link _ _ _ ⟨host, _, bus⟩

/-- Every link leaves an account with every poll, reliable or not. This is what makes the trace of a
run faithful whatever ends it. -/
theorem accountable (link : Link σ) :
    Accountable (Rig.stopped link) (Rig.polled link) Rig.bus (fun rig => rig.host.steps)
      Transfer.Before where
  time_order := fun _ _ h => h
  accounts := by
    intro rig _
    have hpoll := accounts_poll link rig
    obtain ⟨result, next, notes, hstep⟩ :
        ∃ result next notes, rig.poll link = ⟨result, next, notes⟩ := ⟨_, _, _, rfl⟩
    rw [hstep] at hpoll
    unfold Rig.polled
    rw [hstep]
    cases result with
    | ok found => exact ⟨hpoll.account, ungraded_of_ok ()⟩
    | error fault => exact ⟨hpoll.account, ungraded_of_error (hpoll.ungraded fault rfl)⟩
  next_time := by
    intro rig next notes hrunning hpolled
    obtain ⟨phase, hpoll⟩ := exists_running_of_polled hrunning hpolled
    exact Rig.steps_poll hpoll

/-- Reset and enabling leave stores and trace alone. -/
theorem quiet_start (link : Link σ) (config : Config) (bus : Peripheral) (device : σ) :
    (link.start config bus device).Quiet Rig.bus bus := by
  rw [Link.start, Link.powerUp]
  refine .andThen (.within (.andThen (quiet_call (fun _ => bus) _ rfl) ?_)) ?_
  · intro _
    exact quiet_call _ _ rfl
  · intro _
    exact quiet_enable link rfl

/-- The trace of a run over the serial link is a faithful record. Unlike a clocked run it may end
before its first poll, if the chip cannot be started. The trace is empty then, and the stores are
those of the case. -/
theorem run_faithful (link : Link σ) {config : Config} {case : Case} {bus : Peripheral}
    (hstores : case.stores config = .ok bus) (device : σ) (level? : Option Level) :
    Faithful Transfer.Before case
      (fun n => ∃ rig opening last, link.start config bus device = ⟨.ok (), rig, opening⟩
        ∧ HaltsAt (Rig.stopped link) (Rig.polled link) rig n last)
      bus (link.ending config bus device).stores
      (link.run config case device (.keeping true level?)).journal.events
      (link.run config case device (.keeping true level?)).verdict := by
  let begun := (Journal.keeping true level?).record [.message (.runStarted case.name .serial)]
  have hbegun : begun.Traces := (Journal.traces_keeping level?).record _
  have hempty : begun.events = [] :=
    Journal.events_record_of_nil (Journal.traces_keeping level?) rfl _
  -- The start serves nothing, neither in the stores nor in the trace.
  have hquiet := quiet_start link config bus device
  obtain ⟨result, rig, opening, hstart⟩ : ∃ result rig opening,
      link.start config bus device = ⟨result, rig, opening⟩ := ⟨_, _, _, rfl⟩
  have hkept : rig.bus = bus := by
    rw [hstart] at hquiet
    exact hquiet.kept
  have hopening : (begun.record opening).events = [] := by
    rw [hstart] at hquiet
    rw [Journal.events_record_of_nil hbegun hempty]
    exact hquiet.silent
  cases result with
  | error fault =>
      have hrun : link.run config case device (.keeping true level?)
          = ⟨.error fault, rig.device, begun.record opening⟩ := by
        rw [Link.run, hstores]
        simp only [hstart]
        rfl
      rw [hrun, hopening, ending_of_fault hstart]
      rw [hstart] at hquiet
      exact hkept ▸ (Account.nil Transfer.Before 0 0 rig.bus).faithful_of_ungraded case _
        (hquiet.ungraded fault rfl)
  | ok value =>
      have hrecord := Journal.events_record_of_nil (hbegun.record opening) hopening
      obtain ⟨n, last, notes, hpolls, hend⟩ :=
        run_cases hstores hstart (.keeping true level?)
      obtain ⟨haccount, htime⟩ := (accountable link).cycled hpolls
      rw [hkept] at haccount
      rcases hend with ⟨-, -, hending, hrun⟩ | ⟨hlast, -, hending, hrun⟩ | ⟨hending, hrun⟩
        | ⟨hlast, fault, stuck, more, hpolled, hending, hrun⟩
      · rw [hending, hrun, hrecord]
        exact haccount.faithful_of_ungraded case _ rfl
      · rw [hending, hrun, Case.events_conclude ((hbegun.record opening).record notes), hrecord,
          htime, steps_of_start hstart, Nat.zero_add]
        exact haccount.faithful_of_graded case
          ⟨rig, opening, last, hstart, haltsAt_iff.mpr ⟨hlast, notes, hpolls⟩⟩
      · rw [hending, hrun, hrecord]
        exact haccount.faithful_of_ungraded case _ rfl
      · obtain ⟨hall, hungraded⟩ := (accountable link).faulted hpolls hlast hpolled
        rw [hkept] at hall
        rw [hending, hrun, hrecord]
        exact hall.faithful_of_ungraded case _ hungraded

end Serial

/-! ### Every connection -/

namespace Connection

open Memory (Rom)

variable {σ : Type}

/-- The order of the transfers in a trace. -/
def order : Connection σ → Transfer → Transfer → Prop
  | addressed _ | serial _ => Transfer.Before
  | separatePin _ => Transfer.BeforeOrWith

/-- The device reports its first halt behind `n` cycles, or behind `n` polls on the serial link.
Nothing is said about the budget here: the halt is a property of the device in front of the stores.
-/
def HaltsBehind (connection : Connection σ) (config : Config) (case : Case) (device : σ)
    (bus : Peripheral) (n : Nat) : Prop :=
  match connection with
  | addressed pins =>
    ∃ last, HaltsAt pins.clocking.halted pins.clocking.cycle (pins.ready config bus device) n last
  | separatePin pins =>
    ∃ last, HaltsAt pins.clocking.halted pins.clocking.cycle
      (pins.ready config case bus.program device) n last
  | serial link =>
    ∃ rig opening last, link.start config bus device = ⟨.ok (), rig, opening⟩
      ∧ HaltsAt (Serial.Rig.stopped link) (Serial.Rig.polled link) rig n last

end Connection

/-- The trace of every run is a faithful record, whatever the connection, the device and the end of
the run: it leads from the stores in front of which the run begins to those of its ending, and this
ending is the one that the run gives its verdict on. Without stores there is no trace. -/
theorem run_trace_faithful {σ : Type} (connection : Connection σ) (config : Config) (case : Case)
    (device : σ) (level? : Option Level) :
    match connection.freshStores config case with
    | .error fault =>
      (connection.run config case device (.keeping true level?)).verdict = .error fault
        ∧ (connection.run config case device (.keeping true level?)).journal.events = []
    | .ok bus =>
      Faithful connection.order case (connection.HaltsBehind config case device bus) bus
          (connection.ending config case device bus).stores
          (connection.run config case device (.keeping true level?)).journal.events
          (connection.run config case device (.keeping true level?)).verdict
        ∧ (connection.ending config case device bus).Closes case
          (connection.run config case device (.keeping true level?)) := by
  have hline : ∀ line : Message,
      ((Journal.keeping true level?).record [.message line]).events = [] := by
    intro line
    rw [Journal.events_record_of_nil (Journal.traces_keeping level?) rfl]
    rfl
  cases connection with
  | addressed pins =>
      cases hstores : case.stores config with
      | ok bus =>
          simp only [Connection.freshStores, hstores]
          exact ⟨Addressed.run_faithful pins hstores device level?,
            Addressed.closes pins hstores device _⟩
      | error fault =>
          simp only [Connection.freshStores, hstores, Connection.run, Addressed.Device.run]
          exact ⟨trivial, hline _⟩
  | separatePin pins =>
      cases hload : Memory.Rom.load case.program with
      | ok program =>
          simp only [Connection.freshStores, hload]
          exact ⟨SeparatePin.run_faithful pins hload device level?,
            SeparatePin.closes pins hload device _⟩
      | error fault =>
          simp only [Connection.freshStores, hload, Connection.run, SeparatePin.Device.run]
          exact ⟨trivial, hline _⟩
  | serial link =>
      cases hstores : case.stores config with
      | ok bus =>
          simp only [Connection.freshStores, hstores]
          exact ⟨Serial.run_faithful link hstores device level?,
            Serial.closes link hstores device _⟩
      | error fault =>
          simp only [Connection.freshStores, hstores, Connection.run, Serial.Link.run]
          exact ⟨trivial, hline _⟩

/-- A cycle over separate pins may write a byte and read one behind the end of the input. -/
example :
    (Scripted.separatePin.run { cycleBudget := 1 } { name := "echo", expected := #[65] }
        { rows := #[⟨true, 65, true⟩], haltAt := some 1 } (.keeping true none)).journal.events
      = [.transaction 0 .writeIo 0 65 0, .inputFallback 0, .transaction 0 .readIo 0 0 0,
          .halted 1] := by
  decide

end TapeBench
