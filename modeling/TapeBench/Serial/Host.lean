import TapeBench.Serial.Link
import TapeBench.Serial.Phase
import TapeBench.Serial.Register

/-!
# `TapeBench.Serial.Host`: the host of the serial link

The host polls the output register, tells from its `state` field which phase the device is in,
serves that phase and pulses the clock. A device may show a phase for any number of polls: what it
shows is latched at every poll, but a transaction takes place only at the poll that enters the
execution phase.

* `Host`: what the host remembers between two polls.
* `Rig.poll`: one poll, with the exchange and the clock pulse that it leads to.
* `Rig.enable`: lets the device run.

A poll that breaks the phase protocol, or whose transaction faults, changes nothing. A
failure of the transport after that leaves what was done up to the failing call.
-/

set_option autoImplicit false

namespace TapeBench.Serial

open Bus (Op Request)

/-- What the host remembers between two polls:

- `phase`: the phase observed last;
- `opcode`: latched operation code;
- `addrHigh`: latched high byte of the address;
- `addrLow`: latched low byte of the address;
- `inputs`: the input register as the host wants it;
- `steps`: clock pulses so far;
- `commits`: transactions served so far. -/
structure Host where
  phase : Phase := .idle
  opcode : UInt8 := 0
  addrHigh : UInt8 := 0
  addrLow : UInt8 := 0
  inputs : InputRegister := {}
  steps : Nat := 0
  commits : Nat := 0
  deriving DecidableEq, Inhabited

/-- What one poll found:

- `running`: the device is in `phase`; its clock was pulsed;
- `halted`: the device has stopped; its clock was not pulsed. -/
inductive Polled where
  | running (phase : Phase)
  | halted
  deriving DecidableEq

/-- A host with the link it polls and the environment that serves the device:

- `host`: the host;
- `device`: the link with the device behind it;
- `bus`: the environment. -/
structure Rig (σ : Type) where
  host : Host
  device : σ
  bus : Peripheral

namespace Host

/-- The phase that the output register shows, and whether it is a new one. -/
def observe (host : Host) (shown : OutputRegister) : Except Violation (Phase × Transition) :=
  match Phase.ofState shown.state with
  | .error violation => .error violation
  | .ok phase =>
    match host.phase.observe phase with
    | .error violation => .error violation
    | .ok transition => .ok (phase, transition)

/-- Latches the byte that a device shows in `phase`. -/
def latch (host : Host) (phase : Phase) (byte : UInt8) : Host :=
  match phase with
  | .opcode => { host with opcode := byte }
  | .addressHigh => { host with addrHigh := byte }
  | .addressLow => { host with addrLow := byte }
  | .idle | .execute => host

/-- The request that the latches hold, with the outgoing value of the execution phase. -/
def request (host : Host) (value : UInt8) : Request :=
  ⟨.ofCode host.opcode, host.addrHigh.toUInt16 <<< 8 ||| host.addrLow.toUInt16, value⟩

/-- The host after `request` was served with `value`: reads put their value into the input
register, and every transaction raises `op_done`. -/
def committed (host : Host) (request : Request) (value : UInt8) : Host :=
  let busIn := if request.op.isRead then value else host.inputs.busIn
  { host with
    inputs := { host.inputs with busIn, opDone := true }
    commits := host.commits + 1 }

/-- The host after the transaction was taken up by the device: `op_done` is down again. -/
def released (host : Host) : Host :=
  { host with inputs := { host.inputs with opDone := false } }

end Host

namespace Rig

variable {σ : Type}

/-- Serves the transaction in the latches. -/
def execute (value : UInt8) (rig : Rig σ) : Step (Rig σ) Unit :=
  match rig with
  | ⟨host, device, bus⟩ =>
    let request := host.request value
    -- Announced in front of the read that it serves.
    let announced : List Note :=
      if request.op = .readIo && bus.channel.fallsBack then
        [.event (.inputFallback host.steps)]
      else
        []
    match bus.resolve request with
    | ⟨.error fault, bus, notes⟩ => ⟨.error fault, ⟨host, device, bus⟩, announced ++ notes⟩
    | ⟨.ok valueIn, bus, notes⟩ =>
      .done () ⟨host.committed request valueIn, device, bus⟩
        (announced ++ notes
          ++ [.event (.transaction host.steps request.op request.addr value valueIn)])

/-- Serves the phase that was just entered. -/
def enter (phase : Phase) (value : UInt8) (rig : Rig σ) : Step (Rig σ) Unit :=
  match phase with
  | .execute => rig.execute value
  | .idle | .opcode =>
    match rig with
    | ⟨host, device, bus⟩ => .done () ⟨host.released, device, bus⟩ []
  | .addressHigh | .addressLow => .done () rig []

/-- Writes the input register. -/
def sendInputs (link : Link σ) (rig : Rig σ) : Step (Rig σ) Unit :=
  match rig with
  | ⟨host, device, bus⟩ =>
    (Link.call (link.setInputs host.inputs.toBits device) []).within
      fun device => ⟨host, device, bus⟩

/-- Remembers the observed phase and pulses the clock. -/
def pulse (link : Link σ) (phase : Phase) (rig : Rig σ) : Step (Rig σ) Polled :=
  match rig with
  | ⟨host, device, bus⟩ =>
    let host := { host with phase }
    let notes := (link.stepMessages device).map Note.message
    match Link.call (link.stepClock device) notes with
    | ⟨.error fault, device, notes⟩ => ⟨.error fault, ⟨host, device, bus⟩, notes⟩
    | ⟨.ok (), device, notes⟩ =>
      .done (.running phase) ⟨{ host with steps := host.steps + 1 }, device, bus⟩ notes

/-- Serves an observation of `phase`: latches the byte, serves the phase if it is new, and pulses
the clock. -/
def exchange (link : Link σ) (phase : Phase) (transition : Transition) (value : UInt8)
    (rig : Rig σ) : Step (Rig σ) Polled :=
  match rig with
  | ⟨host, device, bus⟩ =>
    let rig : Rig σ := ⟨host.latch phase value, device, bus⟩
    match transition with
    | .held => rig.pulse link phase
    | .entered =>
      ((rig.enter phase value).andThen fun _ rig => rig.sendInputs link).andThen
        fun _ rig => rig.pulse link phase

/-- One poll. -/
def poll (link : Link σ) (rig : Rig σ) : Step (Rig σ) Polled :=
  match rig with
  | ⟨host, device, bus⟩ =>
    match link.getOutputs device with
    | (.error error, device) => .fail (.link error) ⟨host, device, bus⟩
    | (.ok bits, device) =>
      let shown := OutputRegister.ofBits bits
      -- The halt is looked for first: a halted device need not show a phase.
      if shown.halted then
        .done .halted ⟨host, device, bus⟩ []
      else
        match host.observe shown with
        | .error violation => .fail (.protocolViolation violation) ⟨host, device, bus⟩
        | .ok (phase, transition) =>
          exchange link phase transition shown.busOut ⟨host, device, bus⟩

/-- Raises `enable` in the input register. -/
def enable (link : Link σ) (rig : Rig σ) : Step (Rig σ) Unit :=
  match rig with
  | ⟨host, device, bus⟩ =>
    sendInputs link
      ⟨{ host with inputs := { host.inputs with enable := true } }, device, bus⟩

end Rig

end TapeBench.Serial
