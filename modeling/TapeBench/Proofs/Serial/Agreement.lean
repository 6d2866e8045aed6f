import TapeBench.Proofs.Core.Latency
import TapeBench.Proofs.Core.Turns
import TapeBench.Proofs.Serial.Handshake

/-!
# `TapeBench.Proofs.Serial.Agreement`: the serial link carries the addressed bus

The chip behind the serial link runs the core that runs behind the addressed bus. Each of its turns
takes one phase of the link, or five phases if it asks for something, and each phase takes as many
polls as the divider of the chip says. Nothing but time comes between: the same requests reach the
stores in the same order, and the core sees the same values.

* `TraceEvent.untimed`: a trace entry without its time.
* `Behind`: the chip between two requests, where the core behind the bus is between two turns.
* `polls_turn`: one turn of the core over the link.
* `polls_turns`: a sequence of turns over the link.
* `run_link_cpu`: a run over the link, from the run over the addressed bus.
-/

set_option autoImplicit false

namespace TapeBench

open Bus (Op Request)

namespace TraceEvent

/-- A trace entry without its time. -/
def untimed : TraceEvent → TraceEvent
  | .transaction _ op addr valueOut valueIn => .transaction 0 op addr valueOut valueIn
  | .inputFallback _ => .inputFallback 0
  | .halted _ => .halted 0

/-- The entry is a transaction. -/
def isTransaction : TraceEvent → Bool
  | .transaction _ _ _ _ _ => true
  | .inputFallback _ | .halted _ => false

/-- The entry is the halt. -/
def isHalt : TraceEvent → Bool
  | .halted _ => true
  | .transaction _ _ _ _ _ | .inputFallback _ => false

end TraceEvent

namespace Serial

open Addressed (Latched cpu)
open Chip (link)

/-- The time of a transfer is all that depends on the time. -/
theorem untimed_transferred (fellBack : Bool) (time other : Nat) (request : Request)
    (value : UInt8) :
    (transferred fellBack time request value).map TraceEvent.untimed
      = (transferred fellBack other request value).map TraceEvent.untimed := by
  cases fellBack <;> rfl

/-- A transfer leaves no halt in the trace. -/
theorem isHalt_of_mem_transferred {fellBack : Bool} {time : Nat} {request : Request}
    {value : UInt8} :
    ∀ entry ∈ transferred fellBack time request value, entry.isHalt = false := by
  cases fellBack <;> simp [transferred, TraceEvent.isHalt]

/-- The chip is where the core behind the bus is: between two requests, with the same value on the
input of the same core, and in front of the same stores. -/
def Behind (divider : Nat) (state : Latched Core) (rig : Rig Chip) : Prop :=
  ∃ host ticks, host.Waits
    ∧ rig = showing .idle state.core state.valIn divider ticks host state.bus

variable {divider : Nat} {state last : Latched Core} {rig : Rig Chip} {notes : List Note}

/-- A fault-free turn of the core, over the link. An idle turn is one tick of the chip, and a turn
with a request is five: the four phases that spell it, and the tick at which the core takes the
answer. Each tick takes `divider` polls. The traces agree up to the times, which count cycles on one
side and pulses on the other. -/
theorem polls_turn (hdivider : 0 < divider) (hbehind : Behind divider state rig)
    (hrunning : cpu.stopped state = false) (hturn : cpu.turn state = ⟨.ok (), last, notes⟩) :
    ∃ rig' more, Behind divider last rig'
      ∧ Polls link (divider * (1 + 4 * (entries notes).countP TraceEvent.isTransaction)) rig more
          rig'
      ∧ (entries more).map TraceEvent.untimed = (entries notes).map TraceEvent.untimed := by
  obtain ⟨core, valIn, bus, cycles⟩ := state
  obtain ⟨host, ticks, hwaits, rfl⟩ := hbehind
  rcases Addressed.turn_cpu_ok valIn cycles hturn with
    ⟨hidle, rfl, rfl⟩ | ⟨hasks, value, served, lines, hserved, rfl, rfl⟩
  · have hpolls := polls_idle valIn ticks bus hrunning hdivider hwaits hidle
    exact ⟨_, _, ⟨_, _, hwaits.idling divider, rfl⟩, by simpa using hpolls, rfl⟩
  · -- The edge ignores its input, because the stage asks for something.
    have hedge : core.edge valIn = core.edge (if core.request.op.isRead then value else valIn) :=
      Core.edge_of_not_consumes (Core.not_consumes_of_asks hasks) _ _
    have hrequest := polls_request valIn ticks bus hrunning hdivider hwaits hasks
    let asking : Host := (host.idling.addressed core.request).later (4 * divider)
    have hexecute := polls_execute valIn divider (ticks + 4) asking hrunning rfl
      (request_addressed host.idling core.request) hdivider hwaits.enable hserved rfl
    -- A served turn is one transaction: the four phases of a request, and then the edge itself.
    have hone : (transferred (core.request.op = .readIo && bus.channel.fallsBack) cycles
        core.request value).countP TraceEvent.isTransaction = 1 := by
      cases (core.request.op = .readIo && bus.channel.fallsBack : Bool) <;> rfl
    have hcount : divider * (1 + 4 * 1) = 4 * divider + divider := by omega
    rw [hedge, entries_served, hone, hcount]
    refine ⟨_, _, ⟨_, _, waits_serving asking hwaits.enable core.request value divider, rfl⟩,
      hrequest.trans hexecute, ?_⟩
    rw [List.nil_append, entries_append, entries_transferNotes, entries_messages, List.append_nil]
    exact untimed_transferred _ _ _ _ _

/-- A sequence of turns of the core, over the link. The polls add up to those of one cycle for each
turn and of four phases for each transaction in the trace. -/
theorem polls_turns {n : Nat} (hdivider : 0 < divider)
    (hturns : Cycled cpu.stopped cpu.turn n state notes last) (hbehind : Behind divider state rig) :
    ∃ rig' more, Behind divider last rig'
      ∧ Polls link (divider * (n + 4 * (entries notes).countP TraceEvent.isTransaction)) rig more
          rig'
      ∧ (entries more).map TraceEvent.untimed = (entries notes).map TraceEvent.untimed := by
  -- Induction on the turns: one turn is put in front of the others, over the link as well.
  induction hturns generalizing rig with
  | refl => exact ⟨rig, [], hbehind, .refl rig, rfl⟩
  | @cons n state middle last notes more running taken rest ih =>
      obtain ⟨rig', front, hmiddle, hpolls, hfront⟩ := polls_turn hdivider hbehind running taken
      obtain ⟨rig'', back, hlast, hrest, hback⟩ := ih hmiddle
      refine ⟨rig'', front ++ back, hlast, ?_, ?_⟩
      · have hcount : divider * (n + 1 + 4 * (entries (notes ++ more)).countP
              TraceEvent.isTransaction)
            = divider * (1 + 4 * (entries notes).countP TraceEvent.isTransaction)
              + divider * (n + 4 * (entries more).countP TraceEvent.isTransaction) := by
          rw [entries_append, List.countP_append, ← Nat.mul_add]
          congr 1
          omega
        rw [hcount]
        exact hpolls.trans hrest
      · rw [entries_append, entries_append, List.map_append, List.map_append, hfront, hback]

/-- A turn that faults, over the link: the chip spells its request out, and the first poll that
sees it executed faults. -/
theorem polls_fault (hdivider : 0 < divider) (hbehind : Behind divider state rig)
    (hrunning : cpu.stopped state = false) {fault : Fault} {stuck : Latched Core}
    (hturn : cpu.turn state = ⟨.error fault, stuck, notes⟩) :
    ∃ rig' more stuck' last, Polls link (4 * divider) rig more rig'
      ∧ rig'.poll link = ⟨.error fault, stuck', last⟩ := by
  obtain ⟨core, valIn, bus, cycles⟩ := state
  obtain ⟨host, ticks, hwaits, rfl⟩ := hbehind
  obtain ⟨hasks, -, ⟨served, more, hfailed⟩, -⟩ := Addressed.turn_cpu_error valIn cycles hturn
  have hrequest := polls_request valIn ticks bus hrunning hdivider hwaits hasks
  let asking : Host := (host.idling.addressed core.request).later (4 * divider)
  obtain ⟨stuck', last, hpoll⟩ := poll_starved valIn divider (ticks + 4) asking hrunning rfl
    (request_addressed host.idling core.request) hfailed
  exact ⟨_, _, stuck', last, hrequest, hpoll⟩

/-! ### Whole runs -/

/-- The host of a device that was reset and enabled. -/
def enabled : Host :=
  { inputs := { enable := true } }

/-- Reset and enabled, a chip is where the core behind the bus starts. -/
theorem start_link (config : Config) (bus : Peripheral) (chip : Chip) :
    link.start config bus chip
      = ⟨.ok (), showing .idle {} 0 chip.divider 0 enabled bus, []⟩ := by
  obtain ⟨core, phase, latched, inputs, reset, divider, prescale, ticks⟩ := chip
  simp [Link.start, Link.powerUp, Link.call, link, Step.andThen, Step.within, Rig.enable,
    Rig.sendInputs, Chip.driveReset, showing, enabled]

/-- There the two are alike. -/
theorem behind_start (divider : Nat) (bus : Peripheral) :
    Behind divider { core := cpu.start, bus } (showing .idle {} 0 divider 0 enabled bus) :=
  ⟨enabled, 0, ⟨rfl, .inl rfl, rfl⟩, rfl⟩

/-- A poll sees that the core has stopped. -/
theorem poll_of_stopped (hbehind : Behind divider state rig) (h : cpu.stopped state = true) :
    rig.poll link = ⟨.ok .halted, rig, []⟩ ∧ rig.bus = state.bus := by
  obtain ⟨host, ticks, -, rfl⟩ := hbehind
  exact ⟨poll_halted h, rfl⟩

section Ends

variable {config : Config} {case : Case} {bus : Peripheral} {chip : Chip} {n : Nat}

/-- A sequence of turns that takes more polls than the budget allows. -/
theorem verdict_link_of_le (hstores : case.stores config = .ok bus) (hdivider : 0 < chip.divider)
    (hturns : Cycled cpu.stopped cpu.turn n { core := cpu.start, bus } notes last)
    (hn : max config.cycleBudget.toNat 1
      ≤ chip.divider * (n + 4 * (entries notes).countP TraceEvent.isTransaction))
    (journal : Journal) :
    (link.run config case chip journal).verdict
      = .error (.timeout (max config.cycleBudget.toNat 1)) := by
  obtain ⟨rig, more, -, hpolls, -⟩ := polls_turns hdivider hturns (behind_start chip.divider bus)
  exact verdict_of_polls_lt hstores (start_link config bus chip) rfl hpolls hn journal

/-- The core does not start in its last state. -/
theorem pos_of_stopped
    (hturns : Cycled cpu.stopped cpu.turn n { core := cpu.start, bus } notes last)
    (hlast : cpu.stopped last = true) : 0 < n := by
  cases hturns with
  | refl => cases hlast
  | cons => exact Nat.succ_pos _

/-- A sequence of turns behind which the core has stopped, within the budget. The run over the link
concludes on the stores of the last turn, at the number of steps that the turns and their
transactions take. -/
theorem run_link_of_halted (hstores : case.stores config = .ok bus) (hdivider : 0 < chip.divider)
    (hturns : Cycled cpu.stopped cpu.turn n { core := cpu.start, bus } notes last)
    (hlast : cpu.stopped last = true) {steps : Nat}
    (hsteps : steps = chip.divider * (n + 4 * (entries notes).countP TraceEvent.isTransaction))
    (hn : steps < config.cycleBudget.toNat) (journal : Journal) :
    ∃ device more, (entries more).map TraceEvent.untimed = (entries notes).map TraceEvent.untimed
      ∧ link.run config case chip journal
        = case.conclude steps last.bus.channel.output last.bus.tally device
          ((journal.record [.message (.runStarted case.name .serial)]).record more) := by
  obtain ⟨rig, more, hbehind, hpolls, hmore⟩ :=
    polls_turns hdivider hturns (behind_start chip.divider bus)
  obtain ⟨hhalted, hbus⟩ := poll_of_stopped hbehind hlast
  -- The core is not halted at the start, so pulses have been counted when it halts.
  have hpositive := pos_of_stopped hturns hlast
  have hsteps' : steps ≠ 0 := by
    rw [hsteps]
    exact Nat.mul_ne_zero (by omega) (by omega)
  rw [← hsteps] at hpolls
  refine ⟨rig.device, more, hmore, ?_⟩
  rw [run_of_polls_halted hstores (start_link config bus chip) rfl hpolls hsteps' hhalted hn
    journal, hbus, Journal.record_nil]

/-- A sequence of turns behind which a turn faults. The request of that turn is spelled in four
phases before it fails, which is where the one more transaction in `hsteps` comes from. Under a
budget that ends on the way the run times out. -/
theorem verdict_link_of_faulted (hstores : case.stores config = .ok bus)
    (hdivider : 0 < chip.divider)
    (hturns : Cycled cpu.stopped cpu.turn n { core := cpu.start, bus } notes last)
    (hlast : cpu.stopped last = false) {fault : Fault} {stuck : Latched Core} {more : List Note}
    (hfault : cpu.turn last = ⟨.error fault, stuck, more⟩) {steps : Nat}
    (hsteps : steps
      = chip.divider * (n + 4 * ((entries notes).countP TraceEvent.isTransaction + 1)))
    (journal : Journal) :
    (link.run config case chip journal).verdict
      = if steps < config.cycleBudget.toNat then .error fault
        else .error (.timeout (max config.cycleBudget.toNat 1)) := by
  obtain ⟨rig, front, hbehind, hpolls, -⟩ :=
    polls_turns hdivider hturns (behind_start chip.divider bus)
  obtain ⟨rig', back, stuck', last', hrest, hpoll⟩ := polls_fault hdivider hbehind hlast hfault
  have hcount : steps
      = chip.divider * (n + 4 * (entries notes).countP TraceEvent.isTransaction)
        + 4 * chip.divider := by
    rw [hsteps, Nat.mul_comm 4 chip.divider, ← Nat.mul_add]
    congr 1
  -- The four phases in front of the poll that faults are polls as well.
  have hall := hpolls.trans hrest
  rw [← hcount] at hall
  split
  · rename_i hn
    exact verdict_of_polls_faulted hstores (start_link config bus chip) hall hpoll hn journal
  · rename_i hn
    have hpositive : 0 < steps := by omega
    exact verdict_of_polls_lt hstores (start_link config bus chip) rfl hall (by omega) journal

end Ends

/-- No turn leaves a halt in the trace. So the one halt in the trace of a run is the one that its
grade has put there. -/
theorem isHalt_of_turns {n : Nat} (hturns : Cycled cpu.stopped cpu.turn n state notes last) :
    ∀ entry ∈ entries notes, entry.isHalt = false := by
  induction hturns with
  | refl =>
      intro entry hentry
      cases hentry
  | @cons n state middle last notes more running taken rest ih =>
      obtain ⟨core, valIn, bus, cycles⟩ := state
      intro entry hentry
      rw [entries_append, List.mem_append] at hentry
      rcases hentry with hentry | hentry
      · -- An idle turn leaves no entry, and a served one those of its transaction.
        rcases Addressed.turn_cpu_ok valIn cycles taken with
          ⟨-, -, rfl⟩ | ⟨-, value, served, lines, -, -, rfl⟩
        · rw [entries_messages] at hentry
          cases hentry
        · rw [entries_served] at hentry
          exact isHalt_of_mem_transferred entry hentry
      · exact ih entry hentry

/-- The stores depend on the bench by the policy alone. -/
theorem stores_congr {config bench : Config} {case : Case}
    (h : case.policy bench .addressed = case.policy config .addressed) :
    case.stores bench = case.stores config := by
  unfold Case.stores
  rw [h]

/-- A case that cannot be set up is refused for its size, which is neither a fault of the link nor
one of its protocol. -/
theorem kind_of_stores {config : Config} {case : Case} {fault : Fault}
    (h : case.stores config = .error fault) : fault.kind = .setup ∧ fault ≠ .zeroCycle := by
  unfold Case.stores Memory.Rom.load Memory.Ram.load at h
  split at h
  · rename_i hprogram
    split at hprogram <;> cases hprogram
    cases h
    exact ⟨rfl, by simp⟩
  · split at h
    · rename_i hdata
      split at hdata <;> cases hdata
      cases h
      exact ⟨rfl, by simp⟩
    · cases h

/-- The verdict does not depend on the time, and a report only by the time it names. -/
theorem grade_cycles (case : Case) (cycles steps : Nat) (output : Bytes) (tally : Tally) :
    case.grade steps output tally
      = (case.grade cycles output tally).map fun report => { report with cycles := steps } := by
  unfold Case.grade
  split <;> rfl

/-- The trace of a run that logged one line and then left `notes`. -/
theorem events_opened (level? : Option Level) (line : Message) (notes : List Note) :
    (((Journal.keeping true level?).record [.message line]).record notes).events
      = entries notes := by
  rw [Journal.events_record ((Journal.traces_keeping level?).record _),
    Journal.events_record (Journal.traces_keeping level?)]
  rfl

section Compared

variable (config : Config) (case : Case) (level? : Option Level)

/-- A run over the addressed bus in front of given stores, by its end: the trace is that of its
turns, with the halt behind it if there was one. -/
theorem run_cpu_cases {bus : Peripheral} (hstores : case.stores config = .ok bus) :
    ∃ n last notes, Cycled cpu.stopped cpu.turn n { core := cpu.start, bus } notes last
      ∧ n ≤ config.cycleBudget.toNat
      ∧ ((cpu.stopped last = true
          ∧ (cpu.pins.run config case cpu.powerOn (.keeping true level?)).verdict
            = case.grade n last.bus.channel.output last.bus.tally
          ∧ (cpu.pins.run config case cpu.powerOn (.keeping true level?)).journal.events
            = entries notes ++ [.halted n])
        ∨ (cpu.stopped last = false
          ∧ (cpu.pins.run config case cpu.powerOn (.keeping true level?)).verdict
            = .error (.timeout n)
          ∧ (cpu.pins.run config case cpu.powerOn (.keeping true level?)).journal.events
            = entries notes)
        ∨ (cpu.stopped last = false ∧ n < config.cycleBudget.toNat
          ∧ (∃ stuck more, cpu.turn last
              = ⟨.error (.inputExhausted last.bus.channel.consumed), stuck, more⟩)
          ∧ (cpu.pins.run config case cpu.powerOn (.keeping true level?)).verdict
            = .error (.inputExhausted last.bus.channel.consumed)
          ∧ (cpu.pins.run config case cpu.powerOn (.keeping true level?)).journal.events
            = entries notes)) := by
  obtain ⟨hverdict, hjournal⟩ := cpu.run_pins config case cpu.powerOn (.keeping true level?)
  rw [hverdict, hjournal]
  obtain ⟨n, last, notes, hn, hturns, hend⟩ :=
    cpu.run_cases hstores rfl (.keeping true level?)
  refine ⟨n, last, notes, hturns, hn, ?_⟩
  rcases hend with ⟨hlast, hrun⟩ | ⟨hlast, hrun⟩ | ⟨hlast, hlt, fault, stuck, more, hfault, hrun⟩
  · refine .inl ⟨hlast, by rw [hrun]; rfl, ?_⟩
    rw [hrun, Case.events_conclude (((Journal.traces_keeping level?).record _).record _),
      events_opened]
  · exact .inr (.inl ⟨hlast, by rw [hrun], by rw [hrun, events_opened]⟩)
  · obtain ⟨core, valIn, stores, cycles⟩ := last
    -- On the bus of the core a fault can only be a read past the end of the input.
    obtain ⟨-, rfl, -, lines, rfl⟩ := Addressed.turn_cpu_error valIn cycles hfault
    refine .inr (.inr ⟨hlast, hlt, ⟨stuck, _, hfault⟩, by rw [hrun], ?_⟩)
    rw [hrun, events_opened, entries_append, entries_messages, List.append_nil]

/-- A run that cannot be set up leaves no trace. -/
theorem run_cpu_of_error {fault : Fault} (hstores : case.stores config = .error fault) :
    (cpu.pins.run config case cpu.powerOn (.keeping true level?)).verdict = .error fault
      ∧ (cpu.pins.run config case cpu.powerOn (.keeping true level?)).journal.events = [] := by
  rw [Addressed.Device.run, hstores]
  exact ⟨rfl, Journal.events_record (Journal.traces_keeping level?) _⟩

variable (divider : Nat)

/-- A run that halts over the addressed bus, over the serial link. From the halt in the trace the
turns of the bus run are recovered first, and the polls of the link run are then put beside them. -/
theorem run_link_halted {cycles steps : Nat}
    (hhalted : .halted cycles
      ∈ (cpu.pins.run config case cpu.powerOn (.keeping true level?)).journal.events)
    (hsteps : steps = max divider 1 * (cycles
      + 4 * (cpu.pins.run config case cpu.powerOn (.keeping true level?)).journal.events.countP
        TraceEvent.isTransaction))
    {bench : Config} (hpolicy : case.policy bench .addressed = case.policy config .addressed)
    (hbudget : steps < bench.cycleBudget.toNat) :
    (link.run bench case (Chip.withDivider divider) (.keeping true level?)).verdict
        = (cpu.pins.run config case cpu.powerOn (.keeping true level?)).verdict.map
            (fun report => { report with cycles := steps })
      ∧ (link.run bench case (Chip.withDivider divider) (.keeping true level?)).journal.events.map
          TraceEvent.untimed
        = (cpu.pins.run config case cpu.powerOn (.keeping true level?)).journal.events.map
          TraceEvent.untimed
      ∧ .halted steps
        ∈ (link.run bench case (Chip.withDivider divider)
          (.keeping true level?)).journal.events := by
  cases hstores : case.stores config with
  | error fault =>
      rw [(run_cpu_of_error config case level? hstores).2] at hhalted
      cases hhalted
  | ok bus =>
      obtain ⟨n, last, notes, hturns, -, hend⟩ := run_cpu_cases config case level? hstores
      -- Of the three ends only one has a halt in its trace.
      have hnone : (.halted cycles : TraceEvent) ∉ entries notes := by
        intro hmem
        cases isHalt_of_turns hturns _ hmem
      rcases hend with ⟨hlast, hverdict, hevents⟩ | ⟨-, -, hevents⟩ | ⟨-, -, -, -, hevents⟩
      · rw [hevents] at hhalted hsteps ⊢
        obtain rfl : cycles = n := by simpa [hnone] using hhalted
        have hcount : steps = (Chip.withDivider divider).divider
            * (cycles + 4 * (entries notes).countP TraceEvent.isTransaction) := by
          rw [hsteps, List.countP_append]
          rfl
        obtain ⟨device, more, hmore, hrun⟩ := run_link_of_halted
          ((stores_congr hpolicy).trans hstores) (Chip.divider_pos divider) hturns hlast hcount
          hbudget (.keeping true level?)
        have htrace : (link.run bench case (Chip.withDivider divider)
            (.keeping true level?)).journal.events = entries more ++ [.halted steps] := by
          rw [hrun, Case.events_conclude (((Journal.traces_keeping level?).record _).record _),
            events_opened]
        refine ⟨?_, ?_, ?_⟩
        · rw [hverdict, hrun]
          exact grade_cycles case cycles steps _ _
        · rw [htrace, List.map_append, List.map_append, hmore]
          rfl
        · rw [htrace]
          exact List.mem_append_right _ (List.mem_singleton.mpr rfl)
      · rw [hevents] at hhalted
        exact absurd hhalted hnone
      · rw [hevents] at hhalted
        exact absurd hhalted hnone

/-- A run that ends at the end of its input over the addressed bus, over the serial link. `cycles`
is the cycle in which the bus run starves, which its verdict does not tell. -/
theorem verdict_link_exhausted {consumed : Nat}
    (hexhausted : (cpu.pins.run config case cpu.powerOn (.keeping true level?)).verdict
      = .error (.inputExhausted consumed)) :
    ∃ cycles < config.cycleBudget.toNat, ∀ bench,
      case.policy bench .addressed = case.policy config .addressed →
      (link.run bench case (Chip.withDivider divider) (.keeping true level?)).verdict
        = if max divider 1 * (cycles
              + 4 * ((cpu.pins.run config case cpu.powerOn
                (.keeping true level?)).journal.events.countP TraceEvent.isTransaction + 1))
              < bench.cycleBudget.toNat then
            .error (.inputExhausted consumed)
          else
            .error (.timeout (max bench.cycleBudget.toNat 1)) := by
  cases hstores : case.stores config with
  | error fault =>
      -- Images that do not load are refused with another fault.
      rw [(run_cpu_of_error config case level? hstores).1] at hexhausted
      cases hexhausted
      cases (kind_of_stores hstores).1
  | ok bus =>
      obtain ⟨n, last, notes, hturns, -, hend⟩ := run_cpu_cases config case level? hstores
      -- Neither a grade nor a timeout is the verdict, which leaves the turn that starves.
      rcases hend with ⟨-, hverdict, -⟩ | ⟨-, hverdict, -⟩ | ⟨hlast, hn, ⟨stuck, more, hfault⟩,
        hverdict, hevents⟩
      · rw [hverdict, Case.grade] at hexhausted
        split at hexhausted <;> cases hexhausted
      · rw [hverdict] at hexhausted
        cases hexhausted
      · rw [hverdict] at hexhausted
        cases hexhausted
        refine ⟨n, hn, ?_⟩
        intro bench hpolicy
        rw [hevents]
        exact verdict_link_of_faulted ((stores_congr hpolicy).trans hstores)
          (Chip.divider_pos divider) hturns hlast hfault rfl (.keeping true level?)

/-- Whatever its budget, a run over the serial link ends neither for the protocol nor for the
transport nor for a halt that comes too early. -/
theorem verdict_link_polite {fault : Fault}
    (h : (link.run config case (Chip.withDivider divider) (.keeping true level?)).verdict
      = .error fault) :
    fault.kind ≠ .protocol ∧ fault.kind ≠ .link ∧ fault ≠ .zeroCycle := by
  have hdivider := Chip.divider_pos divider
  cases hstores : case.stores config with
  | error refused =>
      rw [Link.run, hstores] at h
      cases h
      obtain ⟨hkind, hzero⟩ := kind_of_stores hstores
      exact ⟨by rw [hkind]; decide, by rw [hkind]; decide, hzero⟩
  | ok bus =>
      -- As many turns as there may be polls decide how the run ends.
      obtain ⟨n, last, notes, -, hturns, hend⟩ := cyclesUntilHalted_cases cpu.stopped cpu.turn
        (max config.cycleBudget.toNat 1) { core := cpu.start, bus } .silent
      have htimeout : max config.cycleBudget.toNat 1 ≤ (Chip.withDivider divider).divider
            * (n + 4 * (entries notes).countP TraceEvent.isTransaction) →
          fault.kind ≠ .protocol ∧ fault.kind ≠ .link ∧ fault ≠ .zeroCycle := by
        intro hlong
        rw [verdict_link_of_le hstores hdivider hturns hlong] at h
        cases h
        exact ⟨by simp [Fault.kind], by simp [Fault.kind], by simp⟩
      rcases hend with ⟨hlast, -⟩ | ⟨-, rfl, -⟩ | ⟨hlast, -, found, stuck, more, hfault, -⟩
      · have hpositive := pos_of_stopped hturns hlast
        by_cases hshort : (Chip.withDivider divider).divider
            * (n + 4 * (entries notes).countP TraceEvent.isTransaction) < config.cycleBudget.toNat
        · obtain ⟨device, more, -, hrun⟩ :=
            run_link_of_halted hstores hdivider hturns hlast rfl hshort (.keeping true level?)
          rw [hrun, Case.conclude, Case.grade] at h
          split at h <;> cases h
          exact ⟨by simp [Fault.kind], by simp [Fault.kind], by simp⟩
        · have hone : 0 < (Chip.withDivider divider).divider
              * (n + 4 * (entries notes).countP TraceEvent.isTransaction) :=
            Nat.mul_pos hdivider (by omega)
          exact htimeout (by omega)
      · exact htimeout (Nat.le_trans (Nat.le_add_right _ _) (Nat.le_mul_of_pos_left _ hdivider))
      · obtain ⟨core, valIn, stores, cycles⟩ := last
        obtain ⟨-, rfl, -⟩ := Addressed.turn_cpu_error valIn cycles hfault
        rw [verdict_link_of_faulted hstores hdivider hturns hlast hfault rfl] at h
        split at h <;> cases h <;> exact ⟨by simp [Fault.kind], by simp [Fault.kind], by simp⟩

end Compared

/-- A run over the serial link, on a chip of any speed, from the run of the same case over the
addressed bus.

* If the bus run halts, the link run takes a step for each of its cycles and four for each of its
  transactions, times the divider. It gives the same verdict but for that number, and the same trace
  but for the times.
* If the bus run starves, so does the link run, unless its budget ends before the chip has spelled
  the read that starves.
* Whatever the budget, the chip keeps to the protocol of the link: no run ends with a violation,
  with an error of the link or with a halt in cycle zero.

`polls_turn` carries the proof from turn to turn. -/
theorem run_link_cpu (config : Config) (case : Case) (divider : Nat) (level? : Option Level) :
    let bused := cpu.pins.run config case cpu.powerOn (.keeping true level?)
    let wired := fun bench : Config =>
      link.run bench case (Chip.withDivider divider) (.keeping true level?)
    let transactions := bused.journal.events.countP TraceEvent.isTransaction
    (∀ cycles steps, .halted cycles ∈ bused.journal.events →
        steps = max divider 1 * (cycles + 4 * transactions) →
      ∀ bench, case.policy bench .addressed = case.policy config .addressed →
        steps < bench.cycleBudget.toNat →
        (wired bench).verdict
            = bused.verdict.map (fun report => { report with cycles := steps })
          ∧ (wired bench).journal.events.map TraceEvent.untimed
            = bused.journal.events.map TraceEvent.untimed
          ∧ .halted steps ∈ (wired bench).journal.events)
      ∧ (∀ consumed, bused.verdict = .error (.inputExhausted consumed) →
        ∃ cycles < config.cycleBudget.toNat, ∀ bench,
          case.policy bench .addressed = case.policy config .addressed →
          (wired bench).verdict
            = if max divider 1 * (cycles + 4 * (transactions + 1)) < bench.cycleBudget.toNat then
                .error (.inputExhausted consumed)
              else
                .error (.timeout (max bench.cycleBudget.toNat 1)))
      ∧ ∀ bench fault, (wired bench).verdict = .error fault →
          fault.kind ≠ .protocol ∧ fault.kind ≠ .link ∧ fault ≠ .zeroCycle := by
  intro bused wired transactions
  refine ⟨?_, ?_, ?_⟩
  · intro cycles steps hhalted hsteps bench hpolicy hbudget
    exact run_link_halted config case level? divider hhalted hsteps hpolicy hbudget
  · intro consumed hexhausted
    exact verdict_link_exhausted config case level? divider hexhausted
  · intro bench fault hfault
    exact verdict_link_polite bench case level? divider hfault

/-- `,.` echoes one byte. -/
def relaying : Case :=
  { name := "relay", program := #[44, 46], input := #[7], expected := #[7] }

/-- `,.,` echoes one byte and reads behind it. -/
def draining : Case :=
  { name := "drain", program := #[44, 46, 44], input := #[7], expected := #[7] }

/-- Over the link both take three times the 12 cycles and the four phases of 7 transactions. -/
theorem run_link_cpu_relaying :
    .halted 12 ∈ (cpu.pins.run {} relaying cpu.powerOn (.keeping true none)).journal.events
      ∧ (link.run {} relaying (Chip.withDivider 3) (.keeping true none)).verdict
        = .ok ⟨3 * (12 + 4 * 7), #[7],
            { readProgram := 3, readData := 1, writeData := 1, readIo := 1, writeIo := 1 }⟩
      ∧ (cpu.pins.run {} draining cpu.powerOn (.keeping true none)).verdict
        = .error (.inputExhausted 1)
      ∧ ∃ cycles < ({} : Config).cycleBudget.toNat,
        (link.run {} draining (Chip.withDivider 3) (.keeping true none)).verdict
          = if 3 * (cycles + 4 * 8) < ({} : Config).cycleBudget.toNat then
              .error (.inputExhausted 1)
            else
              .error (.timeout (max ({} : Config).cycleBudget.toNat 1)) := by
  have hhalted :
      .halted 12 ∈ (cpu.pins.run {} relaying cpu.powerOn (.keeping true none)).journal.events := by
    decide +kernel
  -- Seven transactions: three bytes of code, the cell read and written, and each stream once.
  have hcount : (cpu.pins.run {} relaying cpu.powerOn (.keeping true none)).journal.events.countP
      TraceEvent.isTransaction = 7 := by
    decide +kernel
  have hexhausted : (cpu.pins.run {} draining cpu.powerOn (.keeping true none)).verdict
      = .error (.inputExhausted 1) := by
    decide +kernel
  have hserved : (cpu.pins.run {} draining cpu.powerOn (.keeping true none)).journal.events.countP
      TraceEvent.isTransaction = 7 := by
    decide +kernel
  obtain ⟨hwired, -⟩ := run_link_cpu {} relaying 3 none
  obtain ⟨-, hstarved, -⟩ := run_link_cpu {} draining 3 none
  refine ⟨hhalted, ?_, hexhausted, ?_⟩
  · rw [(hwired 12 120 hhalted (by rw [hcount]; rfl) {} rfl (by decide)).1]
    decide +kernel
  · obtain ⟨cycles, hcycles, hverdict⟩ := hstarved 1 hexhausted
    refine ⟨cycles, hcycles, ?_⟩
    rw [hverdict {} rfl, hserved]
    rfl

end Serial

end TapeBench
