import TapeBench.Addressed.Driver
import TapeBench.Proofs.Journal
import TapeBench.Serial.Host

/-!
# `TapeBench.Proofs.Serial.Transfers`: what serving one request leaves behind

* `transferred`: the trace entries of one request.
* `entries_served`, `entries_transferNotes`: a turn over the addressed bus and the host of the
  serial link leave the same entries.
* `Rig.execute_served`, `Rig.execute_failed`: the host serves the request in its latches.
-/

set_option autoImplicit false

namespace TapeBench.Serial

open Bus (Request)

/-- The notes of a request that was served, with the notes of the stores among them. -/
def transferNotes (bus : Peripheral) (request : Request) (steps : Nat) (notes : List Note)
    (value : UInt8) : List Note :=
  (if request.op = .readIo && bus.channel.fallsBack then [.event (.inputFallback steps)] else [])
    ++ notes ++ [.event (.transaction steps request.op request.addr request.value value)]

/-- The trace entries of a request that was served at `time`. -/
def transferred (fellBack : Bool) (time : Nat) (request : Request) (value : UInt8) :
    List TraceEvent :=
  (if fellBack then [.inputFallback time] else [])
    ++ [.transaction time request.op request.addr request.value value]

/-- A driver of the addressed bus leaves these entries. -/
theorem entries_servedEvents (cycle : Nat) (request : Request) (value : UInt8) (fellBack : Bool) :
    entries (Addressed.servedEvents cycle request value fellBack)
      = transferred fellBack cycle request value := by
  cases fellBack <;> rfl

/-- A turn whose request is served leaves no other entries. -/
theorem entries_served (logged lines : List Message) (cycle : Nat) (request : Request)
    (value : UInt8) (fellBack : Bool) :
    entries (logged.map Note.message
        ++ (lines.map Note.message ++ Addressed.servedEvents cycle request value fellBack))
      = transferred fellBack cycle request value := by
  rw [entries_append, entries_append, entries_messages, entries_messages, entries_servedEvents,
    List.nil_append, List.nil_append]

/-- The host of the serial link leaves the same. -/
theorem entries_transferNotes (bus : Peripheral) (request : Request) (steps : Nat)
    (lines : List Message) (value : UInt8) :
    entries (transferNotes bus request steps (lines.map Note.message) value)
      = transferred (request.op = .readIo && bus.channel.fallsBack) steps request value := by
  rw [transferNotes, transferred, entries_append, entries_append, entries_messages]
  cases (request.op = .readIo && bus.channel.fallsBack : Bool) <;> rfl

variable {σ : Type} {host : Host} (device : σ) {bus next : Peripheral} {byte : UInt8}
  {notes : List Note}

/-- The request in the latches is served. -/
theorem Rig.execute_served {value : UInt8}
    (h : bus.resolve (host.request byte) = ⟨.ok value, next, notes⟩) :
    (⟨host, device, bus⟩ : Rig σ).execute byte
      = ⟨.ok (), ⟨host.committed (host.request byte) value, device, next⟩,
          transferNotes bus (host.request byte) host.steps notes value⟩ := by
  simp only [Rig.execute, h]
  rfl

/-- The request in the latches cannot be served. -/
theorem Rig.execute_failed {fault : Fault}
    (h : bus.resolve (host.request byte) = ⟨.error fault, next, notes⟩) :
    ∃ more, (⟨host, device, bus⟩ : Rig σ).execute byte
      = ⟨.error fault, ⟨host, device, next⟩, more⟩ := by
  simp only [Rig.execute, h]
  exact ⟨_, rfl⟩

end TapeBench.Serial
