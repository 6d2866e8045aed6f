import TapeBench.Proofs.Serial.Pulses

/-!
# `TapeBench.Proofs.Serial.Handshake`: one request over the serial link

Between two requests the chip is idle, and the host has seen either that or the execution phase of
the request before. From there the chip spells its request out and the host takes it together
again. The request reaches the stores once, however often its phases are polled, and the value that
comes back is on the input of the core when it takes its edge.

* `Host.Waits`: what the host knows between two requests.
* `showing`: the chip right behind a tick, and its host.
* `polls_idle`: a request for nothing takes one phase.
* `polls_request`, `polls_execute`: any other request takes four phases, and is served in a fifth.
* `poll_starved`: a request that cannot be served ends the run at the first poll of the fifth phase.
-/

set_option autoImplicit false

namespace TapeBench.Serial

open Bus (Op Request)
open Chip (link)

/-- Between two requests the host has enabled the device, and `op_done` is up as long as the last
phase it has seen is the execution phase. -/
structure Host.Waits (host : Host) : Prop where
  enable : host.inputs.enable = true
  phase : host.phase = .idle ∨ host.phase = .execute
  opDone : host.inputs.opDone = decide (host.phase = .execute)

/-- A chip that has shown `phase` since its last tick, behind a host that has written its input
register. -/
def showing (phase : Phase) (core : Core) (latched : UInt8) (divider ticks : Nat) (host : Host)
    (bus : Peripheral) : Rig Chip :=
  ⟨host, { core, phase, latched, inputs := host.inputs, divider, ticks }, bus⟩

/-- The host while it sees an idle device. -/
def Host.idling (host : Host) : Host :=
  { host.released with phase := .idle }

/-- A host that has seen an idle device already stays as it is. -/
theorem Host.Waits.idling_eq {host : Host} (h : host.Waits) (hphase : host.phase = .idle) :
    host.idling = host := by
  have hdone : host.inputs.opDone = false := by rw [h.opDone, hphase]; rfl
  simp only [Host.idling, Host.released, ← hphase, ← hdone]

/-- The host with more pulses counted. -/
def Host.later (host : Host) (steps : Nat) : Host :=
  { host with steps := host.steps + steps }

/-- A host that sees an idle device keeps waiting. -/
theorem Host.Waits.idling {host : Host} (h : host.Waits) (steps : Nat) :
    (host.idling.later steps).Waits :=
  ⟨h.enable, .inl rfl, rfl⟩

/-- The host that has taken the operation and the address of a request. -/
def Host.addressed (host : Host) (request : Request) : Host :=
  { host with
    phase := .addressLow
    opcode := request.op.code
    addrHigh := (request.addr >>> 8).toUInt8
    addrLow := request.addr.toUInt8 }

/-- A host whose latches hold the parts of a request makes this request of them. The address is put
together from its two bytes. -/
theorem request_addressed (host : Host) (request : Request) :
    (host.addressed request).request request.value = request := by
  simp only [Host.request, Host.addressed, addr_of_bytes, Op.ofCode_code]

section Phases

variable {core : Core} (latched : UInt8) {divider : Nat} (ticks : Nat) {host : Host}
  (bus : Peripheral) (hrunning : core.halted = false) (hdivider : 0 < divider)

include hrunning hdivider

/-- The polls that see the chip idle, up to the next tick. The first of them lowers `op_done`, if it
is still up, and the others hold the phase. -/
theorem polls_of_waits (hwaits : host.Waits) :
    Polls link divider (showing .idle core latched divider ticks host bus)
      ((Chip.tickMessages
        { core, latched, inputs := host.idling.inputs, divider, ticks }).map Note.message)
      ⟨host.idling.later divider,
        Chip.tick { core, latched, inputs := host.idling.inputs, divider, ticks }, bus⟩ := by
  have hawake : Chip.awake { core, latched, inputs := host.inputs, divider, ticks } = true := by
    simp [Chip.awake, hwaits.enable, hrunning]
  -- Either the host has seen the chip idle before, or it still remembers the execution phase.
  rcases hwaits.phase with hphase | hphase
  · obtain ⟨k, rfl⟩ : ∃ k, divider = k + 1 :=
      Nat.exists_eq_succ_of_ne_zero (Nat.ne_of_gt hdivider)
    rw [hwaits.idling_eq hphase]
    exact polls_held bus hawake hphase rfl (Nat.zero_add _)
  · exact polls_entered hawake rfl hdivider (by rw [hphase]; rfl) rfl rfl hwaits.enable

/-- A request for nothing takes one phase, and the core takes its edge behind it. -/
theorem polls_idle (hwaits : host.Waits) (hidle : core.request.op = .noOp) :
    Polls link divider (showing .idle core latched divider ticks host bus)
      ((core.edgeMessages latched).map Note.message)
      (showing .idle (core.edge latched) latched divider (ticks + 1) (host.idling.later divider)
        bus) := by
  have hpolls := polls_of_waits latched ticks bus hrunning hdivider hwaits
  simpa [Chip.tickMessages, Chip.tick, Chip.coreAdvances, Chip.coreInput, hidle, showing,
    Host.later] using hpolls

/-- A chip that has a request spells it out in four phases. Nothing is served meanwhile: the host
latches the operation and the two halves of the address, and the stores and the trace are as they
were when the chip has come to the execution phase. -/
theorem polls_request (hwaits : host.Waits) (hasks : core.request.op ≠ .noOp) :
    Polls link (4 * divider) (showing .idle core latched divider ticks host bus) []
      (showing .execute core latched divider (ticks + 4)
        ((host.idling.addressed core.request).later (4 * divider)) bus) := by
  have hawake : ∀ (phase : Phase) (ticks : Nat), Chip.awake
      { core, phase, latched, inputs := host.idling.inputs, divider, ticks } = true := by
    intro phase ticks
    simp [Chip.awake, Host.idling, Host.released, hwaits.enable, hrunning]
  have hidle : Polls link divider (showing .idle core latched divider ticks host bus) []
      (showing .opcode core latched divider (ticks + 1) (host.idling.later divider) bus) := by
    have hpolls := polls_of_waits latched ticks bus hrunning hdivider hwaits
    simpa [Chip.tickMessages, Chip.tick, Chip.coreAdvances, hasks, showing, Host.later,
      Chip.nextPhase] using hpolls
  -- Each of the other phases is entered from the one before it.
  let coded : Host := { host.idling.later divider with
    phase := .opcode, opcode := core.request.op.code }
  have hopcode : Polls link divider
      (showing .opcode core latched divider (ticks + 1) (host.idling.later divider) bus) []
      (showing .addressHigh core latched divider (ticks + 2) (coded.later divider) bus) :=
    polls_entered (hawake .opcode (ticks + 1)) rfl hdivider rfl rfl rfl hwaits.enable
  let halfway : Host := { coded.later divider with
    phase := .addressHigh, addrHigh := (core.request.addr >>> 8).toUInt8 }
  have hhigh : Polls link divider
      (showing .addressHigh core latched divider (ticks + 2) (coded.later divider) bus) []
      (showing .addressLow core latched divider (ticks + 3) (halfway.later divider) bus) :=
    polls_entered (hawake .addressHigh (ticks + 2)) rfl hdivider rfl rfl rfl hwaits.enable
  let located : Host := { halfway.later divider with
    phase := .addressLow, addrLow := core.request.addr.toUInt8 }
  have hlow : Polls link divider
      (showing .addressLow core latched divider (ticks + 3) (halfway.later divider) bus) []
      (showing .execute core latched divider (ticks + 4) (located.later divider) bus) :=
    polls_entered (hawake .addressLow (ticks + 3)) rfl hdivider rfl rfl rfl hwaits.enable
  have hhost : (host.idling.addressed core.request).later (4 * divider)
      = located.later divider := by
    simp only [located, halfway, coded, Host.later, Host.addressed, Host.mk.injEq, true_and,
      and_true]
    omega
  have hcount : 4 * divider = divider + divider + divider + divider := by omega
  rw [hhost, hcount]
  exact ((hidle.trans hopcode).trans hhigh).trans hlow

end Phases

/-! ### The execution phase -/

/-- The host that has served `request` with `value` and sees the chip execute it. -/
def Host.serving (host : Host) (request : Request) (value : UInt8) : Host :=
  { host.committed request value with phase := .execute }

/-- A host that has served a request waits for the next one. -/
theorem waits_serving (host : Host) (henable : host.inputs.enable = true) (request : Request)
    (value : UInt8) (steps : Nat) : ((host.serving request value).later steps).Waits :=
  ⟨henable, .inr rfl, rfl⟩

section Execute

variable {core : Core} (latched : UInt8) (divider ticks : Nat) (host : Host)
  {bus next : Peripheral} (hrunning : core.halted = false) (hphase : host.phase = .addressLow)
  (hrequest : host.request core.request.value = core.request)

include hrunning hphase hrequest

/-- A request is served at the first poll of its execution phase. The value of a read is on the
input of the core at the edge that ends the phase. -/
theorem polls_execute (hdivider : 0 < divider) (henable : host.inputs.enable = true)
    {value : UInt8} {notes : List Note}
    (hserved : bus.resolve core.request = ⟨.ok value, next, notes⟩) {input : UInt8}
    (hinput : input = if core.request.op.isRead then value else latched) :
    Polls link divider (showing .execute core latched divider ticks host bus)
      (transferNotes bus core.request host.steps notes value
        ++ (core.edgeMessages input).map Note.message)
      (showing .idle (core.edge input) input divider (ticks + 1)
        ((host.serving core.request value).later divider) next) := by
  have hawake : Chip.awake
      { core, phase := .execute, latched, inputs := host.inputs, divider, ticks } = true := by
    simp [Chip.awake, henable, hrunning]
  have henter : Rig.enter .execute core.request.value
      (⟨host, { core, phase := .execute, latched, inputs := host.inputs, divider, ticks }, bus⟩ :
        Rig Chip)
      = ⟨.ok (), ⟨host.committed core.request value,
          { core, phase := .execute, latched, inputs := host.inputs, divider, ticks }, next⟩,
          transferNotes bus core.request host.steps notes value⟩ := by
    rw [← hrequest] at hserved
    have hexecuted := Rig.execute_served
      ({ core, phase := .execute, latched, inputs := host.inputs, divider, ticks } : Chip) hserved
    rwa [hrequest] at hexecuted
  -- Only the first poll of the phase enters it, so the request is served once.
  have hpolls := polls_entered hawake rfl hdivider (by rw [hphase]; rfl) henter rfl henable
  -- At the edge `op_done` is up, so the core is given the value that the host has written.
  have hgiven : Chip.coreInput
      { core, phase := .execute, latched,
        inputs := (host.committed core.request value).inputs, divider, ticks } = input := by
    rw [hinput]
    cases hread : core.request.op.isRead <;> simp [Chip.coreInput, Host.committed, hread]
  have hadvances : Chip.coreAdvances
      { core, phase := .execute, latched,
        inputs := (host.committed core.request value).inputs, divider, ticks } = true := rfl
  simp only [Chip.tickMessages, Chip.tick, hadvances, hgiven, if_true] at hpolls
  exact hpolls

/-- A request that cannot be served ends the first poll of its execution phase. -/
theorem poll_starved {fault : Fault} {notes : List Note}
    (hfailed : bus.resolve core.request = ⟨.error fault, next, notes⟩) :
    ∃ stuck more,
      (showing .execute core latched divider ticks host bus).poll link
        = ⟨.error fault, stuck, more⟩ := by
  rw [← hrequest] at hfailed
  obtain ⟨more, hexecuted⟩ := Rig.execute_failed
    ({ core, phase := .execute, latched, inputs := host.inputs, divider, ticks } : Chip) hfailed
  exact ⟨_, _, poll_faulted hrunning (by rw [hphase]; rfl) hexecuted⟩

end Execute

end TapeBench.Serial
