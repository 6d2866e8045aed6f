import TapeBench.Bus
import TapeBench.Text.Radix

/-!
# `TapeBench.Journal`: trace events and log lines

A run can be observed in two ways. Its trace is the sequence of committed transactions with the
halt at the end; its log is the sequence of lines that drivers, devices and stores report, each
with a level. Both are notes, in the order in which they arise.

* `TraceEvent`, `Message`: the entries of the trace and of the log.
* `Note`: an entry of either kind.
* `Journal`: the notes kept so far, and which notes it keeps at all.

`toList_record` says that a journal grows by the notes that it keeps and forgets nothing.
-/

set_option autoImplicit false

namespace TapeBench

open Bus (Op)

/-- One entry of a trace:

- `transaction`: a transaction was resolved in `cycle`: `valueOut` went out to the stores and
  `valueIn` came back;
- `inputFallback`: a read past the end of the input was served by the fallback byte;
- `halted`: the device halted after `cycles` cycles. -/
inductive TraceEvent where
  | transaction (cycle : Nat) (op : Op) (addr : UInt16) (valueOut valueIn : UInt8)
  | inputFallback (cycle : Nat)
  | halted (cycles : Nat)
  deriving DecidableEq

/-- Severity of a log line:

- `warn`: something is wrong or ignored;
- `info`: progress of a suite;
- `debug`: progress of a run;
- `trace`: single transactions. -/
inductive Level where
  | warn
  | info
  | debug
  | trace
  deriving DecidableEq, Inhabited

namespace Level

/-- Distance from the most severe level. -/
def rank : Level → Nat
  | warn => 0
  | info => 1
  | debug => 2
  | trace => 3

/-- Name of the level in front of a log line. -/
def name : Level → String
  | warn => "WARN"
  | info => "INFO"
  | debug => "DEBUG"
  | trace => "TRACE"

/-- `level` is at least as severe as `limit`. -/
def within (level limit : Level) : Bool :=
  level.rank ≤ limit.rank

end Level

/-- The three ways in which a device is connected to the bench:

- `addressed`: one multiplexed bus for program, data, input and output;
- `separatePin`: separate pins for input and output; the device owns its memories;
- `serial`: packed registers behind a serial link. -/
inductive Encoding where
  | addressed
  | separatePin
  | serial
  deriving DecidableEq, Inhabited

/-- Name of the encoding in log lines. -/
def Encoding.name : Encoding → String
  | addressed => "addressed-bus"
  | separatePin => "separate-pin"
  | serial => "serial-link"

/-- What a log line reports:

- `inputSubstituted`: a read past the end of the input gave the fallback byte;
- `served`: the stores served a transaction;
- `coreHalted`: the processor core stopped at `pc`;
- `programLoaded`: a program of `size` bytes went over the load pins;
- `runStarted`: a run of the case `name` began;
- `dataImageIgnored`: the case `name` brings a data image to a device that owns its data memory;
- `outputMismatch`: the run of `name` halted after `cycles` cycles with a wrong output;
- `passed`: the run of `name` halted after `cycles` cycles with the expected output;
- `entryFinished`: a suite finished an entry, which failed or not, and reports it by `line`. -/
inductive Message where
  | inputSubstituted (byte : UInt8)
  | served (op : Op) (addr : UInt16) (valueOut valueIn : UInt8)
  | coreHalted (pc : UInt16)
  | programLoaded (size : Nat)
  | runStarted (name : String) (encoding : Encoding)
  | dataImageIgnored (name : String) (size : Nat)
  | outputMismatch (name : String) (cycles : Nat)
  | passed (name : String) (cycles : Nat)
  | entryFinished (failed : Bool) (line : String)
  deriving DecidableEq

namespace Message

/-- Level of a log line. -/
def level : Message → Level
  | inputSubstituted _ | served _ _ _ _ => .trace
  | coreHalted _ | programLoaded _ | runStarted _ _ | outputMismatch _ _ | passed _ _ => .debug
  | dataImageIgnored _ _ => .warn
  | entryFinished failed _ => if failed then .warn else .info

/-- Text of a log line without its level. Addresses have four digits in base 16, bytes two. -/
def text : Message → String
  | inputSubstituted byte => "input exhausted, substituting " ++ Text.hex 2 byte.toNat
  | served op addr valueOut valueIn =>
    op.name ++ " addr=" ++ Text.hex 4 addr.toNat ++ " out=" ++ Text.hex 2 valueOut.toNat
      ++ " in=" ++ Text.hex 2 valueIn.toNat
  | coreHalted pc => "core halted at pc=" ++ Text.hex 4 pc.toNat
  | programLoaded size => "loaded " ++ toString size ++ " program byte(s) over the load port"
  | runStarted name encoding => name ++ ": " ++ encoding.name ++ " run"
  | dataImageIgnored name size =>
    name ++ ": separate-pin DUT owns its data memory, ignoring " ++ toString size
      ++ " byte data image"
  | outputMismatch name cycles =>
    name ++ ": output mismatch after " ++ toString cycles ++ " cycles"
  | passed name cycles => name ++ ": passed in " ++ toString cycles ++ " cycles"
  | entryFinished _ line => line

/-- A log line: the level and the text. -/
def line (message : Message) : String :=
  message.level.name ++ " " ++ message.text

end Message

/-- One observation: an entry of the trace or a log line:

- `event`: an entry of the trace;
- `message`: a log line. -/
inductive Note where
  | event (entry : TraceEvent)
  | message (line : Message)
  deriving DecidableEq

namespace Note

/-- The trace entry in a note. -/
def event? : Note → Option TraceEvent
  | .event entry => some entry
  | .message _ => none

/-- The log line in a note. -/
def message? : Note → Option Message
  | .event _ => none
  | .message line => some line

end Note

/-- The notes of a run, as far as somebody wants to keep them:

- `keeps`: the notes that are kept;
- `notes`: the notes kept so far, in order. -/
structure Journal where
  keeps : Note → Bool
  notes : Array Note := #[]

namespace Journal

/-- A journal that keeps nothing. -/
def silent : Journal :=
  ⟨fun _ => false, #[]⟩

/-- A journal that keeps the trace if `traced` is set, and the log lines down to `level?`, if
there is a level. -/
def keeping (traced : Bool) (level? : Option Level) : Journal where
  keeps
    | .event _ => traced
    | .message message => level?.any message.level.within

/-- Adds the notes that are kept. -/
def record (journal : Journal) (notes : List Note) : Journal :=
  match journal with
  | ⟨keeps, kept⟩ =>
    ⟨keeps, notes.foldl (fun kept note => if keeps note then kept.push note else kept) kept⟩

/-- The trace. -/
def events (journal : Journal) : List TraceEvent :=
  journal.notes.toList.filterMap Note.event?

/-- The log. -/
def messages (journal : Journal) : List Message :=
  journal.notes.toList.filterMap Note.message?

/-- Recording does not change what a journal keeps. -/
@[simp] theorem keeps_record (journal : Journal) (notes : List Note) :
    (journal.record notes).keeps = journal.keeps := rfl

/-- A journal grows by the recorded notes that it keeps. -/
theorem toList_record (journal : Journal) (notes : List Note) :
    (journal.record notes).notes.toList
      = journal.notes.toList ++ notes.filter journal.keeps := by
  obtain ⟨keeps, kept⟩ := journal
  simp only [record]
  induction notes generalizing kept with
  | nil => simp
  | cons note rest ih =>
    rw [List.foldl_cons, ih, List.filter_cons]
    split <;> simp

end Journal

end TapeBench
