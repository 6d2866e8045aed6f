import TapeBench.Proofs.Limits

/-!
# `TapeBench.Proofs.Accounting`: the books of a run

Behind a run that passed, the counters agree with the output, with the trace and with each other: a
write for each byte of output, a fallback for each read that the input was too short for, and time
enough for all transactions. Behind every run they are those of its ending, also if it timed out or
was ended by a fault.

* `Balanced`, `Account.balanced`: what the counts have to do with the output and the trace.
* `Clocking.books`, `Serial.books`: the account of a run that passed, and the counters that it ends
  with.
* `Connection.Kept`: what the counts have to do with the time; `Connection.Booked`: all of it.
* `run_accounted`: the counters and the books of every run over every connection.
-/

set_option autoImplicit false

namespace TapeBench

open Bus (Op Request)
open Memory (Rom)

/-! ### The books of a run that passed -/

/-- Stores from which a run of `case` begins:

- `tally`, `output`: nothing was counted and nothing was written;
- `remaining`: nothing was read. -/
structure Peripheral.Fresh (bus : Peripheral) (case : Case) : Prop where
  tally : bus.tally = {}
  output : bus.channel.output = #[]
  remaining : bus.channel.remaining = case.input.size

/-- The stores with which a run of a case begins are fresh, whatever its policy says about the end
of the input. -/
theorem Peripheral.fresh_new (case : Case) (program : Rom) (data : Memory.Ram)
    (policy : Exhaustion) : Fresh ⟨program, data, .ofInput case.input policy, {}⟩ case where
  tally := rfl
  output := rfl
  remaining := Array.length_toList

/-- The report of a run that passed agrees with the output and the trace:

- `written`: a byte of output was written for each write that was counted;
- `fellBack`: a fallback was announced for each read that was counted, up to those that the input
  could serve. -/
structure Balanced (case : Case) (trace : List TraceEvent) (report : Report) : Prop where
  written : report.tally.get .writeIo = report.output.size
  fellBack : fallbacks trace
    = report.tally.get .readIo - min (report.tally.get .readIo) case.input.size

namespace Account

variable {order : Transfer → Transfer → Prop} {stop : Nat} {bus next : Peripheral}
  {trace : List TraceEvent} {case : Case}

/-- From fresh stores on, each operation is counted as often as it is in the trace. -/
theorem tally_of_fresh (h : Account order 0 stop bus trace next) (hfresh : bus.Fresh case)
    (op : Op) :
    next.tally.get op = (transfers trace).countP fun transfer => transfer.request.op = op := by
  rw [h.tally_eq, hfresh.tally]
  cases op <;> exact Nat.zero_add _

/-- So all of them together are counted as often as there are transfers. -/
theorem total_of_fresh (h : Account order 0 stop bus trace next) (hfresh : bus.Fresh case) :
    next.tally.total = (transfers trace).length := by
  rw [h.total, hfresh.tally]
  exact Nat.zero_add _

/-- Behind an account of fresh stores, with the halt behind it, the report is balanced. Fresh stores
have counted nothing, so the counts of the report are those of the transfers in the trace and of
nothing else. -/
theorem balanced (h : Account order 0 stop bus trace next) (hfresh : bus.Fresh case)
    (cycles : Nat) :
    Balanced case (trace ++ [.halted cycles]) ⟨cycles, next.channel.output, next.tally⟩ where
  written := by
    show next.tally.get .writeIo = next.channel.output.size
    rw [h.tally_of_fresh hfresh, h.size_output, hfresh.output]
    exact (Nat.zero_add _).symm
  fellBack := by
    show fallbacks (trace ++ [.halted cycles]) = next.tally.get .readIo - _
    rw [fallbacks_append, h.fallbacks_eq, hfresh.remaining, h.tally_of_fresh hfresh,
      show fallbacks [.halted cycles] = 0 from rfl]
    omega

end Account

/-- A run that passed reports what it was graded on. -/
theorem Case.report_of_grade {case : Case} {cycles : Nat} {output : Bytes} {tally : Tally}
    {report : Report} (h : case.grade cycles output tally = .ok report) :
    report = ⟨cycles, output, tally⟩ := by
  unfold grade at h
  split at h
  · cases h
    rfl
  · cases h

/-! ### The books of each connection -/

namespace Connection

variable {σ : Type}

/-- The counts in a report keep to its time, with `commits` transactions counted by a host:

- `addressed`: requests for nothing are not counted, and a cycle has one transaction at most;
- `separatePin`: only reads and writes are counted, and a cycle has one of each at most;
- `serial`: each transaction takes four clock pulses at least, and the host has counted all of
  them. -/
def Kept (connection : Connection σ) (report : Report) (commits : Nat) : Prop :=
  match connection with
  | addressed _ => report.tally.get .noOp = 0 ∧ report.tally.effects ≤ report.cycles
  | separatePin _ =>
    (∀ op, op ≠ .readIo → op ≠ .writeIo → report.tally.get op = 0)
      ∧ report.tally.get .readIo ≤ report.cycles ∧ report.tally.get .writeIo ≤ report.cycles
  | serial _ => 4 * report.tally.total ≤ report.cycles ∧ commits = report.tally.total

/-- The books of a run that passed with `report`:

- `ended`: the counters that it ended with are those of the report, with `commits` transactions
  counted by a host;
- `balanced`: they agree with the output and the trace;
- `kept`: they keep to the time that the run took. -/
structure Booked (connection : Connection σ) (config : Config) (case : Case) (device : σ)
    (level? : Option Level) (report : Report) (commits : Nat) : Prop where
  ended : (connection.course config case device).getLast?
    = some ⟨report.cycles, commits, report.tally⟩
  balanced : Balanced case (connection.run config case device (.keeping true level?)).journal.events
    report
  kept : connection.Kept report commits

end Connection

/-! ### What no cycle changes -/

/-- What neither of two actions changes is the same behind both. -/
theorem Step.unchanged_andThen {S α β γ : Type} {f : S → γ} {first : Step S α}
    {next : α → S → Step S β} {before : γ} (hfirst : f first.state = before)
    (hnext : ∀ value, f (next value first.state).state = f first.state) :
    f (first.andThen next).state = before :=
  state_andThen (P := fun state => f state = before) hfirst fun value =>
    (hnext value).trans hfirst

/-- What no cycle changes is the same behind every sequence of cycles. -/
theorem Cycled.unchanged {S α : Type} {halted : S → Bool} {cycle : S → Step S Unit} {f : S → α}
    (hcycle : ∀ state, f (cycle state).state = f state) {n : Nat} {start last : S}
    {notes : List Note} (h : Cycled halted cycle n start notes last) : f last = f start := by
  induction h with
  | refl => rfl
  | @cons n state middle last notes more running taken _ ih =>
      have hfirst := hcycle state
      rw [taken] at hfirst
      exact ih.trans hfirst

/-! ### Clocked runs -/

/-- A clocked run that passed leaves an account of all its cycles. Its report is about the stores
behind them, and so are the last of its counters. -/
theorem Clocking.books {σ S : Type} {clocking : Clocking σ S} {stores : S → Peripheral}
    {order : Transfer → Transfer → Prop}
    (haccountable : Accountable clocking.halted clocking.cycle stores clocking.cycles order)
    (houtput : ∀ state, clocking.output state = (stores state).channel.output)
    (htally : ∀ state, clocking.tally state = (stores state).tally) {start : S}
    (hzero : clocking.cycles start = 0) {case : Case} {budget : Nat} {journal : Journal}
    {report : Report}
    (hpassed : (clocking.run case budget start journal).verdict = .ok report) :
    ∃ n last notes, Cycled clocking.halted clocking.cycle n start notes last
      ∧ Account order 0 report.cycles (stores start) (entries notes) (stores last)
      ∧ report = ⟨report.cycles, (stores last).channel.output, (stores last).tally⟩
      ∧ (clocking.course budget start).getLast? = some ⟨report.cycles, 0, report.tally⟩
      ∧ ∀ traced : Journal, traced.Traces → traced.events = [] →
        (clocking.run case budget start traced).journal.events
          = entries notes ++ [.halted report.cycles] := by
  -- A device that halts before its first cycle is refused, so no report comes of it.
  have hstart : clocking.halted start = false := by
    refine Bool.eq_false_iff.mpr fun hstart => ?_
    rw [run, if_pos hstart] at hpassed
    cases hpassed
  obtain ⟨n, last, notes, hn, hcycled, hend⟩ :=
    cyclesUntilHalted_cases clocking.halted clocking.cycle budget start journal
  rcases hend with ⟨hlast, hloop⟩ | ⟨-, -, hloop⟩ | ⟨-, -, fault, stuck, more, -, hloop⟩
  · have hrun := fun other => run_of_halted hstart case other hcycled hlast hn
    rw [hrun journal] at hpassed
    obtain rfl := Case.report_of_grade hpassed
    obtain ⟨haccount, -⟩ := haccountable.cycled hcycled
    rw [hzero] at haccount
    refine ⟨n, last, notes, hcycled, haccount, ?_, ?_, ?_⟩
    · rw [houtput, htally]
    · rw [getLast?_course htally, ending_of_loop stores hloop, htally]
      rfl
    · intro traced htraces hevents
      rw [hrun traced, Case.events_conclude (htraces.record notes),
        Journal.events_record_of_nil htraces hevents]
  · -- The other two ends of the loop are a timeout and a fault, and neither is a report.
    rw [run, if_neg (Bool.eq_false_iff.mp hstart), hloop] at hpassed
    cases hpassed
  · rw [run, if_neg (Bool.eq_false_iff.mp hstart), hloop] at hpassed
    cases hpassed

/-! ### The addressed bus -/

namespace Addressed

variable {σ : Type} (pins : Device σ)

/-- A request for nothing is not counted. -/
theorem noOp_commit (cycle : Nat) (request : Request) (device : σ) (bus : Peripheral) :
    (commit pins cycle request device bus).state.2.tally.get .noOp = bus.tally.get .noOp := by
  rw [commit]
  split
  · rfl
  · rename_i hasks
    have hcount := bus.tally_resolve request .noOp
    rw [decide_eq_false hasks, Bool.false_and] at hcount
    obtain ⟨result, next, notes, hresolve⟩ :
        ∃ result next notes, bus.resolve request = ⟨result, next, notes⟩ := ⟨_, _, _, rfl⟩
    rw [hresolve] at hcount
    simp only [hresolve]
    cases result <;> exact hcount

/-- Nor does the falling half of a cycle count one, which serves the request. -/
theorem noOp_fall (request : Request) (rig : Rig σ) :
    (rig.fall pins request).state.bus.tally.get .noOp = rig.bus.tally.get .noOp := by
  obtain ⟨⟨phase, settleNs, cycles⟩, device, bus⟩ := rig
  have hcommit := noOp_commit pins cycles request (pins.setClock false device) bus
  obtain ⟨result, ⟨after, next⟩, notes, hserved⟩ : ∃ result state notes,
      commit pins cycles request (pins.setClock false device) bus = ⟨result, state, notes⟩ :=
    ⟨_, _, _, rfl⟩
  rw [hserved] at hcommit
  simp only [Rig.fall, hserved]
  cases result <;> exact hcommit

/-- Nor does an advance of the clock, as the rising half serves nothing. -/
theorem noOp_advance (rig : Rig σ) :
    (rig.advance pins).state.bus.tally.get .noOp = rig.bus.tally.get .noOp := by
  unfold Rig.advance
  split
  · rfl
  · exact noOp_fall pins _ rig

/-- So no cycle counts a request for nothing. -/
theorem noOp_cycle (rig : Rig σ) :
    (rig.cycle pins).state.bus.tally.get .noOp = rig.bus.tally.get .noOp := by
  rw [Rig.cycle]
  refine Step.unchanged_andThen (f := fun rig : Rig σ => rig.bus.tally.get .noOp)
    (noOp_advance pins rig) ?_
  intro reached
  cases reached with
  | low => rfl
  | high sampled =>
      exact Step.unchanged_andThen (f := fun rig : Rig σ => rig.bus.tally.get .noOp)
        (noOp_advance pins _) fun _ => rfl

/-- The books of a run over the addressed bus. A cycle serves one request at most, so that the count
of no operation, nor all of them together, can get beyond the cycles. -/
theorem booked {config : Config} {case : Case} {device : σ} {journal : Journal}
    {report : Report} (hpassed : (pins.run config case device journal).verdict = .ok report)
    (level? : Option Level) :
    (Connection.addressed pins).Booked config case device level? report 0 := by
  cases hstores : case.stores config with
  | error fault =>
      simp only [Device.run, hstores] at hpassed
      cases hpassed
  | ok bus =>
      obtain ⟨program, data, -, -, hbus⟩ := Case.exists_of_stores hstores
      have hfresh : bus.Fresh case := hbus ▸ Peripheral.fresh_new case program data _
      -- The report comes of the run behind `journal`, the events of the run that keeps a trace.
      -- Both are the one loop, which `books` then reads twice.
      obtain ⟨_, -, hrun⟩ := pins.run_eq hstores device journal
      obtain ⟨opening, hopening, htraced⟩ := pins.run_eq hstores device (.keeping true level?)
      have htraces := Journal.traces_keeping level?
      have hready := (Journal.events_record_of_nil htraces rfl opening).trans hopening
      rw [hrun] at hpassed
      obtain ⟨n, last, notes, hcycled, haccount, hreport, hended, htrace⟩ :=
        Clocking.books (accountable pins) (fun _ => rfl) (fun _ => rfl) rfl hpassed
      obtain ⟨cycles, output, tally⟩ := report
      cases hreport
      refine ⟨?_, ?_, ?_, ?_⟩
      · simp only [Connection.course, hstores]
        exact hended
      · rw [Connection.run, htraced, htrace _ (htraces.record opening) hready]
        exact haccount.balanced hfresh cycles
      · -- No cycle counts an idle request, so its count is still the one the stores began with.
        have hkept := hcycled.unchanged (f := fun rig : Rig σ => rig.bus.tally.get .noOp)
          (noOp_cycle pins)
        refine hkept.trans ?_
        show bus.tally.get .noOp = 0
        rw [hfresh.tally]
        rfl
      · -- The counts have as many entries as the trace has transfers, and no cycle has two of them.
        have htotal := haccount.total_of_fresh hfresh
        have hle := haccount.countP_le (fun _ => true) fun _ _ h _ _ => h
        rw [List.countP_true, ← htotal] at hle
        exact Nat.le_trans (Nat.le_add_left _ _) hle

end Addressed

/-! ### Separate pins -/

namespace SeparatePin

variable {σ : Type} (pins : Device σ)

section Counted

variable {op : Op}

/-- Collecting a byte counts a write, and nothing else. -/
theorem tally_collect (hwrite : op ≠ .writeIo) (sampled : Sample) (rig : Rig σ) :
    (rig.collect sampled).state.driver.tally.get op = rig.driver.tally.get op := by
  obtain ⟨⟨settleNs, cycles, tally⟩, device, channel⟩ := rig
  simp only [Rig.collect]
  split
  · exact (tally.get_record _ _).trans (if_neg hwrite.symm)
  · rfl

/-- Feeding a byte counts a read, and nothing else. A read that starves is not even counted. -/
theorem tally_feed (hread : op ≠ .readIo) (sampled : Sample) (rig : Rig σ) :
    (rig.feed pins sampled).state.driver.tally.get op = rig.driver.tally.get op := by
  obtain ⟨⟨settleNs, cycles, tally⟩, device, channel⟩ := rig
  simp only [Rig.feed]
  split
  · split
    · rfl
    · exact (tally.get_record _ _).trans (if_neg hread.symm)
  · rfl

/-- A cycle counts reads and writes, and nothing else. -/
theorem tally_cycle (hread : op ≠ .readIo) (hwrite : op ≠ .writeIo) (rig : Rig σ) :
    (rig.cycle pins).state.driver.tally.get op = rig.driver.tally.get op := by
  rw [Rig.cycle]
  refine Step.unchanged_andThen (f := fun rig : Rig σ => rig.driver.tally.get op) rfl ?_
  intro sampled
  refine Step.unchanged_andThen (f := fun rig : Rig σ => rig.driver.tally.get op)
    (tally_collect hwrite sampled _) ?_
  intro _
  exact Step.unchanged_andThen (f := fun rig : Rig σ => rig.driver.tally.get op)
    (tally_feed pins hread sampled _) fun _ => rfl

end Counted

/-- The books of a run over separate pins. A cycle may collect a byte and feed another one, so the
counts of the two streams are bounded one by one, and no other operation is counted. -/
theorem booked {config : Config} {case : Case} {device : σ} {journal : Journal}
    {report : Report} (hpassed : (pins.run config case device journal).verdict = .ok report)
    (level? : Option Level) :
    (Connection.separatePin pins).Booked config case device level? report 0 := by
  cases hload : Rom.load case.program with
  | error fault =>
      simp only [Device.run, hload] at hpassed
      cases hpassed
  | ok program =>
      obtain ⟨_, -, hrun⟩ := pins.run_eq hload device journal
      obtain ⟨opening, hopening, htraced⟩ := pins.run_eq hload device (.keeping true level?)
      have htraces := Journal.traces_keeping level?
      have hready := (Journal.events_record_of_nil htraces rfl opening).trans hopening
      have hfresh : (Rig.stores program (pins.ready config case program device)).Fresh case :=
        Peripheral.fresh_new case program .zero _
      rw [hrun] at hpassed
      obtain ⟨n, last, notes, hcycled, haccount, hreport, hended, htrace⟩ :=
        Clocking.books (accountable program pins) (fun _ => rfl) (fun _ => rfl) rfl hpassed
      -- A read and a write may share a cycle, so here the bound holds for each operation by itself.
      have hle := fun op => (haccount.tally_of_fresh hfresh op).trans_le
        (haccount.countP_op_le Transfer.exclusive_beforeOrWith op)
      obtain ⟨cycles, output, tally⟩ := report
      cases hreport
      refine ⟨?_, ?_, ?_, hle .readIo, hle .writeIo⟩
      · simp only [Connection.course, hload]
        exact hended
      · rw [Connection.run, htraced, htrace _ (htraces.record opening) hready]
        exact haccount.balanced hfresh cycles
      · intro op hread hwrite
        have hkept := hcycled.unchanged (f := fun rig : Rig σ => rig.driver.tally.get op)
          (tally_cycle pins hread hwrite)
        refine hkept.trans ?_
        cases op <;> rfl

end SeparatePin

/-! ### The serial link -/

namespace Serial

variable {σ : Type} {link : Link σ}

/-- A run over the serial link that passed leaves an account of all its polls. Its report is about
the stores behind them, and so are the last of its counters. -/
theorem books {config : Config} {case : Case} {bus : Peripheral}
    (hstores : case.stores config = .ok bus) (device : σ) {journal : Journal} {report : Report}
    (hpassed : (link.run config case device journal).verdict = .ok report) :
    ∃ rig opening n last notes, link.start config bus device = ⟨.ok (), rig, opening⟩
      ∧ Polls link n rig notes last
      ∧ Account Transfer.Before 0 report.cycles bus (entries notes) last.bus
      ∧ report = ⟨last.host.steps, last.bus.channel.output, last.bus.tally⟩
      ∧ (link.course config bus device).getLast? = some last.counters
      ∧ ∀ traced : Journal, traced.Traces → traced.events = [] →
        (link.run config case device traced).journal.events
          = entries notes ++ [.halted report.cycles] := by
  obtain ⟨result, rig, opening, hstart⟩ : ∃ result rig opening,
      link.start config bus device = ⟨result, rig, opening⟩ := ⟨_, _, _, rfl⟩
  have hquiet := quiet_start link config bus device
  rw [hstart] at hquiet
  -- The start serves nothing: the loop sets out from the stores that the run was given.
  obtain rfl : rig.bus = bus := hquiet.kept
  cases result with
  | error fault =>
      rw [Link.run, hstores] at hpassed
      simp only [hstart] at hpassed
      cases hpassed
  | ok value =>
      obtain ⟨n, last, notes, hpolls, hpulsed, hlast, hn⟩ :=
        exists_stopped_of_passed hstores hstart hpassed
      have hrun := run_of_polls_stopped hstores hstart hpolls hpulsed hlast hn
      rw [hrun journal] at hpassed
      obtain rfl := Case.report_of_grade hpassed
      obtain ⟨haccount, -⟩ := (accountable link).cycled hpolls
      rw [steps_of_start hstart] at haccount
      refine ⟨rig, opening, n, last, notes, hstart, hpolls, haccount, rfl, ?_, ?_⟩
      · rw [getLast?_course, ending_of_loop hstart
          ((pollsUntilHalted_of_polls hpolls hn journal).trans
            (pollsUntilHalted_halted (stopped_iff.mp hlast) _ _))]
        rfl
      · -- Before the first poll the journal holds lines of the log only, and no event.
        intro traced htraces hevents
        let begun := traced.record [.message (.runStarted case.name .serial)]
        have hbegun : begun.events = [] := Journal.events_record_of_nil htraces hevents _
        have hready : (begun.record opening).events = [] :=
          (Journal.events_record_of_nil (htraces.record _) hbegun opening).trans hquiet.silent
        rw [hrun traced, Case.events_conclude (((htraces.record _).record opening).record notes),
          Journal.events_record_of_nil ((htraces.record _).record opening) hready]

/-- The books of a run over the serial link. A transaction takes a pulse in each of its four phases
(`Host.Paced`), so four times as many pulses have been counted as transactions. -/
theorem booked {config : Config} {case : Case} {device : σ} {journal : Journal}
    {report : Report} (hpassed : (link.run config case device journal).verdict = .ok report)
    (level? : Option Level) :
    ∃ commits, (Connection.serial link).Booked config case device level? report commits := by
  cases hstores : case.stores config with
  | error fault =>
      simp only [Link.run, hstores] at hpassed
      cases hpassed
  | ok bus =>
      obtain ⟨program, data, -, -, hbus⟩ := Case.exists_of_stores hstores
      have hfresh : bus.Fresh case := hbus ▸ Peripheral.fresh_new case program data _
      obtain ⟨rig, opening, n, last, notes, hstart, hpolls, haccount, rfl, hended, htrace⟩ :=
        books hstores device hpassed
      obtain ⟨inputs, hhost⟩ := host_start link config bus device
      rw [hstart] at hhost
      simp only at hhost
      -- The host is paced once the chip has been started, and every poll keeps that.
      have hpaced : last.host.Paced := by
        refine paced_polls ?_ hpolls
        rw [hhost]
        exact Nat.le_refl 0
      have hcommits : last.host.commits = last.bus.tally.total := by
        rw [commits_polls hpolls, haccount.total_of_fresh hfresh, hhost]
        exact Nat.zero_add _
      refine ⟨last.host.commits, ?_, ?_, ?_, hcommits⟩
      · simp only [Connection.course, hstores]
        exact hended
      · rw [Connection.run, htrace _ (Journal.traces_keeping level?) rfl]
        exact haccount.balanced hfresh last.host.steps
      · show 4 * last.bus.tally.total ≤ last.host.steps
        rw [← hcommits]
        exact Nat.le_trans (Nat.le_add_right _ _) hpaced

end Serial

/-! ### Every connection -/

/-- The counters and the books of every run. On the way no counter moves by more than one, and none
gets beyond the cycle budget, or beyond one if the budget is zero; so each of them fits into 64
bits. The last of them are those of the ending, and the ending decides what the run gives, be it a
report, a timeout or any other fault. If the run passed, its report is that of the last counters,
and its books are kept. -/
theorem run_accounted {σ : Type} (connection : Connection σ) (config : Config) (case : Case)
    (device : σ) :
    Limited (max 1 config.cycleBudget.toNat) (connection.course config case device)
      ∧ max 1 config.cycleBudget.toNat < UInt64.size
      ∧ (match connection.freshStores config case with
        | .error _ => connection.course config case device = []
        | .ok bus =>
          (connection.course config case device).getLast?
              = some (connection.ending config case device bus).counters
            ∧ ∀ journal, (connection.ending config case device bus).Closes case
              (connection.run config case device journal))
      ∧ ∀ journal report level?,
        (connection.run config case device journal).verdict = .ok report →
          ∃ commits, connection.Booked config case device level? report commits := by
  refine ⟨connection.limited_course config case device, ?_, ?_, ?_⟩
  · have hbudget := config.cycleBudget.toNat_lt_size
    exact Nat.max_lt.mpr ⟨by decide, hbudget⟩
  · split
    · rename_i hstores
      exact Connection.course_of_error hstores device
    · rename_i bus hstores
      exact ⟨Connection.getLast?_course hstores device, Connection.closes hstores device⟩
  · intro journal report level? hpassed
    cases connection with
    | addressed pins => exact ⟨0, Addressed.booked pins hpassed level?⟩
    | separatePin pins => exact ⟨0, SeparatePin.booked pins hpassed level?⟩
    | serial link => exact Serial.booked hpassed level?

/-- A case without input whose reads past the end give zero. -/
def padded : Case :=
  { name := "padded", onExhausted := some (.returnByte 0) }

/-- A device on the serial link that reads one byte of input. -/
def oneRead : Scripted.Tape :=
  { outputs := [0x106, 0x200, 0x300, 0x400, 0x800] }

/-- Its read takes four clock pulses, and the fallback serves it. With a budget of three pulses the
run times out, and its counters end at the time of the timeout. -/
theorem run_accounted_one_read :
    (Scripted.link.run { cycleBudget := 5 } padded oneRead .silent).verdict
        = .ok ⟨4, #[], { readIo := 1 }⟩
      ∧ (∃ commits, (Connection.serial Scripted.link).Booked { cycleBudget := 5 } padded oneRead
          none ⟨4, #[], { readIo := 1 }⟩ commits)
      ∧ (Scripted.link.run { cycleBudget := 3 } padded oneRead .silent).verdict
        = .error (.timeout 3)
      ∧ ((Connection.serial Scripted.link).course { cycleBudget := 3 } padded oneRead).getLast?
        = some { time := 3 } := by
  obtain ⟨-, -, -, hbooks⟩ :=
    run_accounted (.serial Scripted.link) { cycleBudget := 5 } padded oneRead
  -- The same device under a budget that ends within its read.
  obtain ⟨-, -, hended, -⟩ :=
    run_accounted (.serial Scripted.link) { cycleBudget := 3 } padded oneRead
  have hpassed : (Scripted.link.run { cycleBudget := 5 } padded oneRead .silent).verdict
      = .ok ⟨4, #[], { readIo := 1 }⟩ := by
    decide
  exact ⟨hpassed, hbooks .silent _ none hpassed, (hended.2 .silent).verdict, hended.1⟩

end TapeBench
