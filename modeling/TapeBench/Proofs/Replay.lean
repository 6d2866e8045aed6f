import TapeBench.Proofs.Cycles
import TapeBench.Proofs.History
import TapeBench.Proofs.Serial.Transfers

/-!
# `TapeBench.Proofs.Replay`: traces that can be replayed

A trace tells which requests were served, when, and with which value. `Account` says that it tells
all of it: the stores of the beginning, asked again, give the same values, end up where the traced
stores did, and find their input empty exactly where the trace announces a fallback. Two accounts
one behind the other are an account again, so a machine whose cycles leave accounts leaves one with
every sequence of cycles.

* `Transfer`, `transfers`: a request that was served, and those of a trace.
* `Peripheral.told`: the trace that the stores would tell.
* `Account`, `Account.total`: what a trace says of the stores before and behind it, and of how much
  they have counted.
* `Accountable`: a machine that leaves an account with every cycle.
* `Accountable.cycled`: it leaves one with every sequence of cycles.
* `Faithful`: what the trace of a run is worth.
-/

set_option autoImplicit false

namespace TapeBench

open Bus (Request)
open Serial (transferred)

/-- A request that was served:

- `time`: the cycle, or the clock step on the serial link, in which it was served;
- `request`: the request;
- `value`: the value that came back. -/
structure Transfer where
  time : Nat
  request : Request
  value : UInt8

/-- The transfer in an entry of a trace. -/
def TraceEvent.transfer? : TraceEvent → Option Transfer
  | .transaction cycle op addr valueOut valueIn => some ⟨cycle, ⟨op, addr, valueOut⟩, valueIn⟩
  | .inputFallback _ | .halted _ => none

/-- The transfers of a trace, in order. -/
def transfers (trace : List TraceEvent) : List Transfer :=
  trace.filterMap TraceEvent.transfer?

/-- Without entries there are no transfers. -/
@[simp] theorem transfers_nil : transfers [] = [] := rfl

/-- A trace may be looked through in parts. -/
@[simp] theorem transfers_append (trace more : List TraceEvent) :
    transfers (trace ++ more) = transfers trace ++ transfers more :=
  List.filterMap_append

/-- The entries of a request that is served hold one transfer, also if a fallback is announced in
front of it. -/
theorem transfers_transferred (fellBack : Bool) (time : Nat) (request : Request) (value : UInt8) :
    transfers (transferred fellBack time request value) = [⟨time, request, value⟩] := by
  cases fellBack <;> rfl

namespace Peripheral

/-- The trace of some transfers, as stores would tell it that serve their requests: each of them is
an entry, and in front of a read that finds the input empty is an entry that announces the
fallback. -/
def told : (bus : Peripheral) → List Transfer → List TraceEvent
  | _, [] => []
  | bus, ⟨time, request, value⟩ :: rest =>
    transferred (request.op = .readIo && bus.channel.remaining = 0) time request value
      ++ (bus.resolve request).state.told rest

/-- Stores that are asked on answer from the point that they have reached. -/
theorem answers_append (bus : Peripheral) (requests more : List Request) :
    bus.answers (requests ++ more)
      = bus.answers requests ++ (bus.behind requests).answers more := by
  induction requests generalizing bus with
  | nil => rfl
  | cons request rest ih =>
      show _ :: (bus.resolve request).state.answers (rest ++ more) = _
      rw [ih]
      rfl

/-- Requests may be served in parts. -/
theorem behind_append (bus : Peripheral) (requests more : List Request) :
    bus.behind (requests ++ more) = (bus.behind requests).behind more := by
  induction requests generalizing bus with
  | nil => rfl
  | cons request rest ih => exact ih _

/-- Stores may tell of transfers in parts, and of the later ones from the point that the earlier
ones lead to. -/
theorem told_append (bus : Peripheral) (served more : List Transfer) :
    bus.told (served ++ more)
      = bus.told served ++ (bus.behind (served.map Transfer.request)).told more := by
  induction served generalizing bus with
  | nil => rfl
  | cons transfer rest ih =>
      show _ ++ (bus.resolve transfer.request).state.told (rest ++ more) = _
      rw [ih, ← List.append_assoc]
      rfl

/-- A read that is served finds the input empty if the fallback serves it. The left side is what a
driver asks when it traces a fallback, and the right side is what can be seen of the stores in a
replay. -/
theorem fallsBack_of_resolve {bus next : Peripheral} {request : Request} {value : UInt8}
    {notes : List Note} (h : bus.resolve request = ⟨.ok value, next, notes⟩) :
    (request.op = .readIo && bus.channel.fallsBack : Bool)
      = (request.op = .readIo && bus.channel.remaining = 0 : Bool) := by
  obtain ⟨program, data, ⟨input, consumed, output, policy⟩, tally⟩ := bus
  obtain ⟨op, addr, out⟩ := request
  cases op with
  | readIo =>
      cases input with
      | cons byte rest => rfl
      | nil =>
          cases policy with
          | fail => cases h
          | returnByte byte => rfl
  | noOp | readProgram | readData | writeData | writeIo => rfl

/-- A request that fails has nothing to fall back on. So the drivers, which look for a fallback
before they resolve, trace none for it. -/
theorem not_fallsBack_of_error {bus : Peripheral} {request : Request} {fault : Fault}
    (h : (bus.resolve request).result = .error fault) : bus.channel.fallsBack = false := by
  obtain ⟨program, data, channel, tally⟩ := bus
  obtain ⟨op, addr, out⟩ := request
  cases op with
  | readIo =>
      rcases channel.read_cases with ⟨byte, after, lines, hread⟩ | ⟨hfalls, -⟩
      · simp only [resolve, hread, served, Step.done] at h
        cases h
      · exact hfalls
  | noOp | readProgram | readData | writeData | writeIo => cases h

end Peripheral

/-- A trace from `start` to `stop` is an account of what stores did that were `bus` before it and
are `next` behind it:

- `answered`: asked again for each transfer, the stores give its value;
- `reached`: they are then where the traced ones were;
- `told`: they would tell the same trace;
- `within`: every transfer is in time;
- `ordered`: the transfers are in order. -/
structure Account (order : Transfer → Transfer → Prop) (start stop : Nat) (bus : Peripheral)
    (trace : List TraceEvent) (next : Peripheral) : Prop where
  answered : bus.answers ((transfers trace).map Transfer.request)
    = (transfers trace).map fun transfer => .ok transfer.value
  reached : bus.behind ((transfers trace).map Transfer.request) = next
  told : trace = bus.told (transfers trace)
  within : ∀ transfer ∈ transfers trace, start ≤ transfer.time ∧ transfer.time < stop
  ordered : (transfers trace).Pairwise order

namespace Account

variable {order : Transfer → Transfer → Prop} {start middle stop : Nat}
  {bus between next : Peripheral} {trace more : List TraceEvent}

/-- Nothing happened. -/
theorem nil (order : Transfer → Transfer → Prop) (start stop : Nat) (bus : Peripheral) :
    Account order start stop bus [] bus where
  answered := rfl
  reached := rfl
  told := rfl
  within := by
    intro transfer htransfer
    cases htransfer
  ordered := .nil

/-- One request was served. Its transfer bears the time of the action, and the fallback stands in
front of it in the trace, if it was needed. -/
theorem single (order : Transfer → Transfer → Prop) (time : Nat) {request : Request}
    {value : UInt8} {notes : List Note} (h : bus.resolve request = ⟨.ok value, next, notes⟩) :
    Account order time (time + 1) bus
      (transferred (request.op = .readIo && bus.channel.fallsBack) time request value) next where
  -- One transfer is in the trace, and to replay it is to resolve its request once.
  answered := by
    rw [transfers_transferred]
    show [(bus.resolve request).result] = _
    rw [h]
    rfl
  reached := by
    rw [transfers_transferred]
    show (bus.resolve request).state = _
    rw [h]
  told := by
    rw [transfers_transferred, Peripheral.told, Peripheral.told, List.append_nil,
      Peripheral.fallsBack_of_resolve h]
  within := by
    intro transfer htransfer
    rw [transfers_transferred, List.mem_singleton] at htransfer
    subst htransfer
    exact ⟨Nat.le_refl time, Nat.lt_succ_self time⟩
  ordered := by
    rw [transfers_transferred]
    exact List.pairwise_singleton order _

/-- Two accounts of the same time, if their transfers are in order. Actions within one cycle share
its time, so their order is not given by it. -/
theorem join (first : Account order start stop bus trace between)
    (second : Account order start stop between more next)
    (hcross : ∀ earlier ∈ transfers trace, ∀ later ∈ transfers more, order earlier later) :
    Account order start stop bus (trace ++ more) next where
  answered := by
    rw [transfers_append, List.map_append, List.map_append, Peripheral.answers_append,
      first.answered, first.reached, second.answered]
  reached := by
    rw [transfers_append, List.map_append, Peripheral.behind_append, first.reached,
      second.reached]
  told := by
    rw [transfers_append, Peripheral.told_append, first.reached, ← first.told, ← second.told]
  within := by
    intro transfer htransfer
    rw [transfers_append] at htransfer
    rcases List.mem_append.mp htransfer with h | h
    · exact first.within transfer h
    · exact second.within transfer h
  ordered := by
    rw [transfers_append, List.pairwise_append]
    exact ⟨first.ordered, second.ordered, hcross⟩

/-- A trace is in time if it is in less time. -/
theorem widen {earlier later : Nat} (h : Account order start stop bus trace next)
    (hstart : earlier ≤ start) (hstop : stop ≤ later) :
    Account order earlier later bus trace next :=
  { h with
    within := by
      intro transfer htransfer
      obtain ⟨hge, hlt⟩ := h.within transfer htransfer
      omega }

/-- Two accounts one after the other, if time orders the transfers. -/
theorem append (horder : ∀ first second : Transfer, first.time < second.time → order first second)
    (hmiddle : start ≤ middle) (hstop : middle ≤ stop)
    (first : Account order start middle bus trace between)
    (second : Account order middle stop between more next) :
    Account order start stop bus (trace ++ more) next := by
  refine join (first.widen (Nat.le_refl start) hstop) (second.widen hmiddle (Nat.le_refl stop)) ?_
  intro earlier hearlier later hlater
  have hlt := (first.within earlier hearlier).2
  have hge := (second.within later hlater).1
  exact horder earlier later (Nat.lt_of_lt_of_le hlt hge)

/-- Every transfer of an account is counted. -/
theorem total (h : Account order start stop bus trace next) :
    next.tally.total = bus.tally.total + (transfers trace).length := by
  have hanswered := h.answered
  rw [← h.reached, Peripheral.total_behind (hanswered.trans (List.map_map).symm), List.length_map]

/-- An account without transfers is one of nothing. -/
theorem eq_nil (h : Account order start stop bus trace next)
    (hnone : transfers trace = []) : trace = [] ∧ next = bus := by
  have htold := h.told
  have hreached := h.reached
  rw [hnone] at htold hreached
  exact ⟨htold, hreached.symm⟩

end Account

/-! ### Actions that leave accounts -/

/-- The runs that halted are graded, and a wrong output is a fault of graded runs only. -/
def Verdict.isGraded : Verdict → Bool
  | .ok _ | .error (.outputMismatch _ _) => true
  | .error _ => false

/-- An action that gives a value does not fault like a graded run. -/
theorem ungraded_of_ok {α : Type} (value : α) :
    ∀ fault, (.ok value : Except Fault α) = .error fault →
      Verdict.isGraded (.error fault) = false := by
  intro fault h
  cases h

/-- An action faults like a graded run if its fault is one of a graded run. -/
theorem ungraded_of_error {α : Type} {fault : Fault}
    (h : Verdict.isGraded (.error fault) = false) :
    ∀ other, (.error fault : Except Fault α) = .error other →
      Verdict.isGraded (.error other) = false := by
  intro other hother
  cases hother
  exact h

/-- An action leaves stores and trace alone:

- `kept`: the stores behind it are `bus`, as they were in front of it;
- `silent`: it leaves no entry in the trace;
- `ungraded`: it does not fault like a graded run. -/
structure Step.Quiet {S α : Type} (stores : S → Peripheral) (bus : Peripheral) (step : Step S α) :
    Prop where
  kept : stores step.state = bus
  silent : entries step.notes = []
  ungraded : ∀ fault, step.result = .error fault → Verdict.isGraded (.error fault) = false

/-- An action leaves an account of the transfers of one cycle, in front of the stores `bus`:

- `account`: its trace is an account, whether it faults or not;
- `ungraded`: it does not fault like a graded run. -/
structure Step.Accounts {S α : Type} (stores : S → Peripheral)
    (order : Transfer → Transfer → Prop) (time : Nat) (bus : Peripheral) (step : Step S α) :
    Prop where
  account : Account order time (time + 1) bus (entries step.notes) (stores step.state)
  ungraded : ∀ fault, step.result = .error fault → Verdict.isGraded (.error fault) = false

section Actions

variable {S T α β : Type} {stores : S → Peripheral} {order : Transfer → Transfer → Prop}
  {time : Nat} {bus : Peripheral} {first : Step S α} {next : α → S → Step S β}

namespace Step.Quiet

/-- Two quiet actions are quiet. The second one has to be so with every value, as a quiet action may
give any. -/
theorem andThen (hfirst : first.Quiet stores bus)
    (hnext : ∀ value, (next value first.state).Quiet stores bus) :
    (first.andThen next).Quiet stores bus := by
  obtain ⟨result, middle, front⟩ := first
  cases result with
  | error fault => exact ⟨hfirst.kept, hfirst.silent, ungraded_of_error (hfirst.ungraded fault rfl)⟩
  | ok value =>
      have hsecond := hnext value
      refine ⟨hsecond.kept, ?_, hsecond.ungraded⟩
      show entries (front ++ (next value middle).notes) = []
      rw [entries_append, hfirst.silent, hsecond.silent, List.append_nil]

/-- What is quiet on a part of a state is quiet on the state. -/
theorem within {embed : T → S} {step : Step T α}
    (h : step.Quiet (fun part => stores (embed part)) bus) :
    (step.within embed).Quiet stores bus :=
  ⟨h.kept, h.silent, h.ungraded⟩

end Step.Quiet

namespace Step.Accounts

/-- A quiet action leaves an account of nothing. -/
theorem quiet (h : first.Quiet stores bus) : first.Accounts stores order time bus where
  account := by
    rw [h.kept, h.silent]
    exact .nil order time (time + 1) bus
  ungraded := h.ungraded

/-- Two actions of one cycle, if their transfers are in order. If the first one fails, the second
one is not taken, and the account of the first one is all there is. -/
theorem andThen (hfirst : first.Accounts stores order time bus)
    (hnext : ∀ value, first.result = .ok value →
      (next value first.state).Accounts stores order time (stores first.state))
    (hcross : ∀ value, first.result = .ok value → ∀ earlier ∈ transfers (entries first.notes),
      ∀ later ∈ transfers (entries (next value first.state).notes), order earlier later) :
    (first.andThen next).Accounts stores order time bus := by
  obtain ⟨result, middle, front⟩ := first
  cases result with
  | error fault => exact ⟨hfirst.account, ungraded_of_error (hfirst.ungraded fault rfl)⟩
  | ok value =>
      have hsecond := hnext value rfl
      refine ⟨?_, hsecond.ungraded⟩
      show Account order time (time + 1) bus (entries (front ++ (next value middle).notes)) _
      rw [entries_append]
      exact .join hfirst.account hsecond.account (hcross value rfl)

/-- An action behind a quiet one. It begins from the same stores and at the same time, so its
account is that of both. -/
theorem quiet_andThen (hfirst : first.Quiet stores bus)
    (hnext : ∀ value, first.result = .ok value →
      (next value first.state).Accounts stores order time bus) :
    (first.andThen next).Accounts stores order time bus := by
  refine andThen (quiet hfirst) ?_ ?_
  · intro value hvalue
    rw [hfirst.kept]
    exact hnext value hvalue
  · intro _ _ earlier hearlier
    rw [hfirst.silent] at hearlier
    cases hearlier

/-- An action in front of a quiet one. -/
theorem andThen_quiet (hfirst : first.Accounts stores order time bus)
    (hnext : ∀ value, first.result = .ok value →
      (next value first.state).Quiet stores (stores first.state)) :
    (first.andThen next).Accounts stores order time bus := by
  refine andThen hfirst ?_ ?_
  · intro value hvalue
    exact quiet (hnext value hvalue)
  · intro value hvalue _ _ later hlater
    rw [(hnext value hvalue).silent] at hlater
    cases hlater

end Step.Accounts

end Actions

/-- A machine that leaves an account with every cycle. Its states have stores and a time:

- `time_order`: transfers in different cycles are in order;
- `accounts`: each cycle accounts for its transfers;
- `next_time`: a fault-free cycle takes one unit of time. -/
structure Accountable {S : Type} (halted : S → Bool) (cycle : S → Step S Unit)
    (stores : S → Peripheral) (time : S → Nat) (order : Transfer → Transfer → Prop) : Prop where
  time_order : ∀ first second : Transfer, first.time < second.time → order first second
  accounts : ∀ state, halted state = false →
    (cycle state).Accounts stores order (time state) (stores state)
  next_time : ∀ state next notes, halted state = false → cycle state = ⟨.ok (), next, notes⟩ →
    time next = time state + 1

namespace Accountable

variable {S : Type} {halted : S → Bool} {cycle : S → Step S Unit} {stores : S → Peripheral}
  {time : S → Nat} {order : Transfer → Transfer → Prop} {n : Nat} {start last stuck : S}
  {notes more : List Note}

/-- The machine leaves an account with every sequence of cycles, and its time moves by one with
each. This is the induction over a run: one cycle leaves an account, and accounts join. -/
theorem cycled (h : Accountable halted cycle stores time order)
    (hcycled : Cycled halted cycle n start notes last) :
    Account order (time start) (time last) (stores start) (entries notes) (stores last)
      ∧ time last = time start + n := by
  -- Induction on the sequence: the account of its first cycle goes in front of that of the others.
  induction hcycled with
  | refl state => exact ⟨.nil order _ _ _, rfl⟩
  | @cons n state middle last notes more running taken _ ih =>
      obtain ⟨hrest, hlast⟩ := ih
      have hmiddle := h.next_time state middle notes running taken
      have hfirst := (h.accounts state running).account
      rw [taken, ← hmiddle] at hfirst
      rw [entries_append]
      exact ⟨.append h.time_order (by omega) (by omega) hfirst hrest, by omega⟩

/-- So it does with one more cycle behind them that faults. Its account may hold a transfer, where
something was served in front of the fault, and the fault is never a grade. -/
theorem faulted (h : Accountable halted cycle stores time order)
    (hcycled : Cycled halted cycle n start notes last) (hlast : halted last = false)
    {fault : Fault} (hfault : cycle last = ⟨.error fault, stuck, more⟩) :
    Account order (time start) (time last + 1) (stores start) (entries (notes ++ more))
        (stores stuck)
      ∧ Verdict.isGraded (.error fault) = false := by
  obtain ⟨hcycles, htime⟩ := h.cycled hcycled
  have hend := h.accounts last hlast
  rw [hfault] at hend
  rw [entries_append]
  exact ⟨.append h.time_order (by omega) (Nat.le_succ _) hcycles hend.account,
    hend.ungraded fault rfl⟩

end Accountable

/-! ### Faithful traces -/

/-- The trace of a run is a faithful record of it. The run is one of `case` that began in front of
the stores `bus` and ended with the stores `last`, and `halts n` says that its device reports its
first halt behind `n` cycles:

- `replayed`: asked again for each transfer, the stores give its value;
- `reached`: they are then those that the run ended with, whether it was graded or not. Stores count
  what they serve, so no transfer is missing;
- `ordered`: the transfers are in order;
- `ungraded`: a run that is not graded leaves its transfers, with the fallbacks announced right in
  front of the reads that they serve;
- `graded`: a run that is graded leaves the halt behind them, and passes if the output that the
  replay leaves is the expected one. -/
structure Faithful (order : Transfer → Transfer → Prop) (case : Case) (halts : Nat → Prop)
    (bus last : Peripheral) (trace : List TraceEvent) (verdict : Verdict) : Prop where
  replayed : bus.answers ((transfers trace).map Transfer.request)
    = (transfers trace).map fun transfer => .ok transfer.value
  reached : bus.behind ((transfers trace).map Transfer.request) = last
  ordered : (transfers trace).Pairwise order
  ungraded : verdict.isGraded = false → trace = bus.told (transfers trace)
  graded : verdict.isGraded = true → ∃ n, halts n
    ∧ trace = bus.told (transfers trace) ++ [.halted n]
    ∧ verdict = if last.channel.output = case.expected then
        .ok ⟨n, last.channel.output, last.tally⟩
      else
        .error (.outputMismatch case.expected last.channel.output)

/-- A verdict on an output is one of a graded run. -/
theorem isGraded_grade (case : Case) (cycles : Nat) (output : Bytes) (tally : Tally) :
    (case.grade cycles output tally).isGraded = true := by
  unfold Case.grade
  split <;> rfl

namespace Account

variable {order : Transfer → Transfer → Prop} {start stop : Nat} {bus next : Peripheral}
  {trace : List TraceEvent}

/-- An account is a faithful record of a run that is not graded. No halt is in its trace, and it
still leads to the stores that the run has left. -/
theorem faithful_of_ungraded (h : Account order start stop bus trace next) (case : Case)
    (halts : Nat → Prop) {verdict : Verdict} (hverdict : verdict.isGraded = false) :
    Faithful order case halts bus next trace verdict where
  replayed := h.answered
  reached := h.reached
  ordered := h.ordered
  ungraded := fun _ => h.told
  graded := by
    intro hgraded
    rw [hverdict] at hgraded
    cases hgraded

/-- With the halt behind it, an account is a faithful record of a run that is graded on the stores
behind it. The grade is written out over the stores of the ending, so that the record and the
verdict speak of the same stores. -/
theorem faithful_of_graded (h : Account order start stop bus trace next) (case : Case)
    {halts : Nat → Prop} {n : Nat} (hn : halts n) :
    Faithful order case halts bus next (trace ++ [.halted n])
      (case.grade n next.channel.output next.tally) := by
  -- The halt is no transfer, so the replay is that of the account.
  have htransfers : transfers (trace ++ [.halted n]) = transfers trace := by
    rw [transfers_append]
    exact List.append_nil _
  refine ⟨?_, ?_, ?_, ?_, ?_⟩
  · rw [htransfers]
    exact h.answered
  · rw [htransfers]
    exact h.reached
  · rw [htransfers]
    exact h.ordered
  · intro hgraded
    rw [isGraded_grade] at hgraded
    cases hgraded
  · intro _
    rw [htransfers]
    exact ⟨n, hn, congrArg (· ++ [.halted n]) h.told, rfl⟩

end Account

end TapeBench
