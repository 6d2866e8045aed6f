import TapeBench.Proofs.Stream.Tracks
import TapeBench.Serial.Run

/-!
# `TapeBench.Proofs.Stream.Drivers`: the drivers on an input and on a longer one

No driver looks at the input but through a read, and the flag that tells a fallback goes into the
trace and nowhere else. So the actions of a driver track each other, from the parts of a cycle or of
a poll up to the whole.

* `Addressed.Rig.Continues.cycle`, `SeparatePin.Rig.Continues.cycle`: one cycle.
* `Serial.Rig.Continues.poll`: one poll.
* `Serial.run_tracked`: a run over the serial link.
-/

set_option autoImplicit false

namespace TapeBench

open Bus (Request)

variable {σ α : Type} {policy : Exhaustion} {size : Nat}

/-! ### The addressed bus -/

namespace Addressed

/-- Rigs that agree in everything but their stores, of which the second continue the first. -/
inductive Rig.Continues (policy : Exhaustion) (size : Nat) : Rig σ → Rig σ → Prop
  | rigs {driver : Driver} {device : σ} {short long : Peripheral}
      (bus : short.Continues policy size long) :
      Continues policy size ⟨driver, device, short⟩ ⟨driver, device, long⟩

variable {short long : Rig σ}

/-- The rising half of a cycle does not look at the stores. -/
theorem Rig.Continues.rise (h : Rig.Continues policy size short long) (pins : Device σ) :
    Step.Tracks policy size (Rig.Continues policy size) (short.rise pins) (long.rise pins) := by
  obtain ⟨hbus⟩ := h
  exact .done (.rigs hbus)

/-- The driver looks at the input that is left in order to trace a fallback, and for nothing else.
The traces of the two runs may differ there, and `Step.Tracks` says nothing about them. -/
theorem Rig.Continues.fall (h : Rig.Continues policy size short long) (pins : Device σ)
    (request : Request) :
    Step.Tracks policy size (Rig.Continues policy size) (short.fall pins request)
      (long.fall pins request) := by
  obtain @⟨⟨phase, settleNs, cycles⟩, device, bus, continued, hbus⟩ := h
  have hserved := hbus.resolve request
  by_cases hidle : request.op = .noOp
  · simp only [Rig.fall, commit, if_pos hidle]
    exact .done (Rig.Continues.rigs hbus)
  · simp only [Rig.fall, commit, if_neg hidle]
    generalize bus.resolve request = served at hserved
    generalize continued.resolve request = mirrored at hserved
    cases hserved with
    | done agree => exact .done (.rigs agree)
    | failed fed => exact .failed fed
    | starved bare => exact .starved bare

/-- An advance of the clock is one of the two halves. -/
theorem Rig.Continues.advance (h : Rig.Continues policy size short long) (pins : Device σ) :
    Step.Tracks policy size (Rig.Continues policy size) (short.advance pins)
      (long.advance pins) := by
  obtain ⟨hbus⟩ := h
  simp only [Rig.advance]
  split
  · exact Rig.Continues.rise (.rigs hbus) pins
  · exact Rig.Continues.fall (.rigs hbus) pins _

/-- A cycle is one advance or two, so it tracks as they do. -/
theorem Rig.Continues.cycle (h : Rig.Continues policy size short long) (pins : Device σ) :
    Step.Tracks policy size (Rig.Continues policy size) (short.cycle pins) (long.cycle pins) := by
  refine (h.advance pins).andThen fun reached rig twin hreached => ?_
  cases reached with
  | low => exact .done hreached
  | high sampled => exact (hreached.advance pins).andThen fun _ _ _ hlow => .done hlow

end Addressed

/-! ### Separate pins -/

namespace SeparatePin

/-- Rigs that agree in everything but their channels, of which the second continues the first. -/
inductive Rig.Continues (policy : Exhaustion) (size : Nat) : Rig σ → Rig σ → Prop
  | rigs {driver : Driver} {device : σ} {short long : Channel}
      (channel : short.Continues policy size long) :
      Continues policy size ⟨driver, device, short⟩ ⟨driver, device, long⟩

variable {short long : Rig σ}

/-- A byte that is collected goes to the output of both. -/
theorem Rig.Continues.collect (h : Rig.Continues policy size short long) (sampled : Sample) :
    Step.Tracks policy size (Rig.Continues policy size) (short.collect sampled)
      (long.collect sampled) := by
  obtain @⟨⟨settleNs, cycles, tally⟩, device, channel, continued, hchannel⟩ := h
  simp only [Rig.collect]
  split
  · exact .done (.rigs (hchannel.write sampled.outVal))
  · exact .done (.rigs hchannel)

/-- A byte that is fed comes from the part of the input that both have. Behind it the longer input
holds what the policy of the shorter one gives, or else the shorter one starves. -/
theorem Rig.Continues.feed (h : Rig.Continues policy size short long) (pins : Device σ)
    (sampled : Sample) :
    Step.Tracks policy size (Rig.Continues policy size) (short.feed pins sampled)
      (long.feed pins sampled) := by
  obtain @⟨⟨settleNs, cycles, tally⟩, device, channel, continued, hchannel⟩ := h
  have hread := hchannel.read
  simp only [Rig.feed]
  split
  · generalize channel.read = given at hread
    generalize continued.read = mirrored at hread
    cases hread with
    | done agree => exact .done (.rigs agree)
    | failed fed => exact .failed fed
    | starved bare => exact .starved bare
  · exact .done (.rigs hchannel)

/-- Of the parts of a cycle only the one that feeds a byte can tell the two inputs apart. The other
parts do not read from the channel. -/
theorem Rig.Continues.cycle (h : Rig.Continues policy size short long) (pins : Device σ) :
    Step.Tracks policy size (Rig.Continues policy size) (short.cycle pins) (long.cycle pins) := by
  have hrise : Step.Tracks policy size (Rig.Continues policy size) (short.rise pins)
      (long.rise pins) := by
    obtain ⟨hchannel⟩ := h
    exact .done (.rigs hchannel)
  refine hrise.andThen fun sampled rig twin hrisen => ?_
  have hlower : Rig.Continues policy size (rig.lower pins) (twin.lower pins) := by
    obtain ⟨hchannel⟩ := hrisen
    exact .rigs hchannel
  refine (hlower.collect sampled).andThen fun _ rig twin hcollected => ?_
  refine (hcollected.feed pins sampled).andThen fun _ rig twin hfed => ?_
  obtain ⟨hchannel⟩ := hfed
  exact .done (.rigs hchannel)

end SeparatePin

/-! ### The serial link -/

namespace Serial

/-- Rigs that agree in everything but their stores, of which the second continue the first. -/
inductive Rig.Continues (policy : Exhaustion) (size : Nat) : Rig σ → Rig σ → Prop
  | rigs {host : Host} {device : σ} {short long : Peripheral}
      (bus : short.Continues policy size long) :
      Continues policy size ⟨host, device, short⟩ ⟨host, device, long⟩

variable {short long : Rig σ}

/-- A call to the link does not see the stores. -/
theorem tracks_call (outcome : Except LinkError α × σ) (notes more : List Note) :
    Step.Tracks policy size Eq (Link.call outcome notes) (Link.call outcome more) := by
  obtain ⟨result, device⟩ := outcome
  cases result with
  | ok value => exact .done rfl
  | error error => exact .failed (by simp)

/-- Serving a transaction looks at the input that is left in order to trace a fallback, and for
nothing else, as the falling half of a cycle does. -/
theorem Rig.Continues.execute (h : Rig.Continues policy size short long) (value : UInt8) :
    Step.Tracks policy size (Rig.Continues policy size) (short.execute value)
      (long.execute value) := by
  obtain @⟨host, device, bus, continued, hbus⟩ := h
  have hserved := hbus.resolve (host.request value)
  simp only [Rig.execute]
  generalize bus.resolve (host.request value) = served at hserved
  generalize continued.resolve (host.request value) = mirrored at hserved
  cases hserved with
  | done agree => exact .done (.rigs agree)
  | failed fed => exact .failed fed
  | starved bare => exact .starved bare

/-- Of the phases only the execution reaches the stores. -/
theorem Rig.Continues.enter (h : Rig.Continues policy size short long) (phase : Phase)
    (value : UInt8) :
    Step.Tracks policy size (Rig.Continues policy size) (short.enter phase value)
      (long.enter phase value) := by
  cases phase with
  | execute => exact h.execute value
  | idle | opcode =>
      obtain ⟨hbus⟩ := h
      exact .done (.rigs hbus)
  | addressHigh | addressLow => exact .done h

/-- Writing the input register does not reach them, and fails for both or for none, as the same
device is asked the same. -/
theorem Rig.Continues.sendInputs (h : Rig.Continues policy size short long) (link : Link σ) :
    Step.Tracks policy size (Rig.Continues policy size) (short.sendInputs link)
      (long.sendInputs link) := by
  obtain @⟨host, device, bus, continued, hbus⟩ := h
  have hcall : Step.Tracks policy size Eq _ _ :=
    tracks_call (link.setInputs host.inputs.toBits device) [] []
  have hrigs : ∀ state twin : σ, state = twin →
      Rig.Continues policy size ⟨host, state, bus⟩ ⟨host, twin, continued⟩ := by
    rintro state _ rfl
    exact .rigs hbus
  exact hcall.within hrigs

/-- Neither does pulsing the clock. -/
theorem Rig.Continues.pulse (h : Rig.Continues policy size short long) (link : Link σ)
    (phase : Phase) :
    Step.Tracks policy size (Rig.Continues policy size) (short.pulse link phase)
      (long.pulse link phase) := by
  obtain @⟨host, device, bus, continued, hbus⟩ := h
  simp only [Rig.pulse]
  rcases link.stepClock device with ⟨result, device⟩
  cases result with
  | ok value => exact .done (.rigs hbus)
  | error error => exact .failed (by simp)

/-- An observation is latched in both hosts alike, and what follows tracks part by part. The only
part that can tell the inputs apart is the transaction. -/
theorem Rig.Continues.exchange (h : Rig.Continues policy size short long) (link : Link σ)
    (phase : Phase) (transition : Transition) (value : UInt8) :
    Step.Tracks policy size (Rig.Continues policy size)
      (short.exchange link phase transition value)
      (long.exchange link phase transition value) := by
  obtain @⟨host, device, bus, continued, hbus⟩ := h
  have hlatched : Rig.Continues policy size ⟨host.latch phase value, device, bus⟩
      ⟨host.latch phase value, device, continued⟩ := (.rigs hbus)
  cases transition with
  | held => exact hlatched.pulse link phase
  | entered =>
      refine ((hlatched.enter phase value).andThen fun _ _ _ hentered =>
        hentered.sendInputs link).andThen fun _ _ _ hsent => hsent.pulse link phase

/-- Both polls read the same word, and find the same violation or serve the same phase. The hosts
and the devices of the two rigs are equal, so all of this is computed from the same data. -/
theorem Rig.Continues.poll (h : Rig.Continues policy size short long) (link : Link σ) :
    Step.Tracks policy size (Rig.Continues policy size) (short.poll link) (long.poll link) := by
  obtain @⟨host, device, bus, continued, hbus⟩ := h
  simp only [Rig.poll]
  rcases link.getOutputs device with ⟨result, device⟩
  cases result with
  | error error => exact .failed (by simp)
  | ok bits =>
      simp only
      split
      · exact .done (.rigs hbus)
      · split
        · exact .failed (by simp)
        · exact Rig.Continues.exchange (.rigs hbus) link _ _ _

/-- The loops that poll track each other, and have the same budget. Where the shorter input starves
one of them, nothing is said of the other. -/
theorem pollsUntilHalted_tracks (link : Link σ) (spare : Nat) :
    ∀ (short long : Rig σ) (journal second : Journal), Rig.Continues policy size short long →
      Stop.Tracks policy size (Rig.Continues policy size)
        (link.pollsUntilHalted spare short journal) (link.pollsUntilHalted spare long second) := by
  induction spare with
  | zero =>
      intro short long journal second h
      -- Both loops poll once. The poll is generalized, so that its ends are those of `h.poll`.
      have hpolled := h.poll link
      simp only [Link.pollsUntilHalted]
      generalize short.poll link = polled at hpolled
      generalize long.poll link = mirrored at hpolled
      cases hpolled with
      | @done found _ _ _ _ agree =>
          cases found with
          | halted => exact .halted agree
          | running phase => exact .exhausted agree
      | failed fed => exact .faulted fed
      | starved bare => exact .starved bare
  | succ spare ih =>
      intro short long journal second h
      have hpolled := h.poll link
      rw [Link.pollsUntilHalted, Link.pollsUntilHalted]
      generalize short.poll link = polled at hpolled
      generalize long.poll link = mirrored at hpolled
      cases hpolled with
      | @done found _ _ _ _ agree =>
          cases found with
          | halted => exact .halted agree
          | running phase => exact ih _ _ _ _ agree
      | failed fed => exact .faulted fed
      | starved bare => exact .starved bare

/-- Reset and enabling come in front of every request, so they do not look at the stores. A device
that fails there fails in both runs. -/
theorem Rig.Continues.start {bus continued : Peripheral} (h : bus.Continues policy size continued)
    (link : Link σ) {config other : Config}
    (hwindow : other.serialResetHoldNs = config.serialResetHoldNs) (device : σ) :
    Step.Tracks policy size (Rig.Continues policy size) (link.start config bus device)
      (link.start other continued device) := by
  have hpower : Step.Tracks policy size Eq (link.powerUp config.serialResetHoldNs device)
      (link.powerUp config.serialResetHoldNs device) :=
    (tracks_call _ _ _).andThen fun _ _ _ hsame => hsame ▸ tracks_call _ _ _
  simp only [Link.start, hwindow]
  have hrigs : ∀ state twin : σ, state = twin →
      Rig.Continues policy size ⟨{}, state, bus⟩ ⟨{}, twin, continued⟩ := by
    rintro state _ rfl
    exact .rigs h
  refine (hpower.within hrigs).andThen fun _ rig twin hready => ?_
  obtain ⟨hbus⟩ := hready
  exact Rig.Continues.sendInputs (.rigs hbus) link

/-- Runs over the link from stores that agree track each other. The two benches may differ in
everything but the reset and the budget, and the two cases in everything but what is expected, as
far as their stores agree. -/
theorem run_tracked (link : Link σ) {config other : Config} {case longer : Case}
    {bus continued : Peripheral} (hstores : case.stores config = .ok bus)
    (hlonger : longer.stores other = .ok continued) (h : bus.Continues policy size continued)
    (hwindow : other.serialResetHoldNs = config.serialResetHoldNs)
    (hbudget : other.cycleBudget = config.cycleBudget) (hexpected : longer.expected = case.expected)
    (device : σ) (journal : Journal) :
    Tracked policy size (link.run config case device journal).verdict
      (link.run other longer device journal).verdict := by
  -- First the start, then the loop. Each of them tracks, and a fault at the start ends both runs.
  have hstart := Rig.Continues.start h link hwindow device
  simp only [Link.run, hstores, hlonger]
  generalize link.start config bus device = started at hstart
  generalize link.start other continued device = mirrored at hstart
  cases hstart with
  | failed fed => exact .same (by simpa using fed)
  | starved bare => exact .starved bare
  | @done _ rig twin notes more agree =>
      have hended := pollsUntilHalted_tracks link (config.cycleBudget.toNat - 1) rig twin
        ((journal.record [.message (.runStarted case.name .serial)]).record notes)
        ((journal.record [.message (.runStarted longer.name .serial)]).record more) agree
      simp only [hbudget]
      generalize link.pollsUntilHalted _ rig _ = ended at hended
      generalize link.pollsUntilHalted _ twin _ = beside at hended
      cases hended with
      | faulted fed => exact .same (by simpa using fed)
      | starved bare => exact .starved bare
      | exhausted agree =>
          obtain ⟨hbus⟩ := agree
          exact .same (by simp)
      | halted agree =>
          obtain @⟨host, device, bus, continued, ⟨hchannel⟩⟩ := agree
          simp only [hchannel.output]
          split
          · exact .same (by simp)
          · exact Case.conclude_tracked hexpected _ _ _ _ _ _ _

end Serial

end TapeBench
