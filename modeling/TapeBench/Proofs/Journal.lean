import TapeBench.Case

/-!
# `TapeBench.Proofs.Journal`: what a journal keeps

* `entries`: the trace entries among some notes.
* `Journal.record_append`: notes may be recorded in parts.
* `Journal.events_record`: a journal that keeps the trace gains the trace entries among the notes.
* `Case.events_conclude`: the trace of a run that is graded ends with the halt.
-/

set_option autoImplicit false

namespace TapeBench

namespace Note

/-- A note of a trace entry holds this entry. -/
@[simp] theorem event?_event (entry : TraceEvent) : (event entry).event? = some entry := rfl

/-- A log line is no trace entry. -/
@[simp] theorem event?_message (line : Message) : (message line).event? = none := rfl

/-- So there is no trace entry among log lines. -/
@[simp] theorem filterMap_event?_message (lines : List Message) :
    lines.filterMap (event? ∘ message) = [] :=
  List.filterMap_eq_nil_iff.mpr fun _ _ => rfl

end Note

/-- The trace entries among some notes. -/
def entries (notes : List Note) : List TraceEvent :=
  notes.filterMap Note.event?

/-- Without notes there are no entries. -/
@[simp] theorem entries_nil : entries [] = [] := rfl

/-- Notes may be looked through in parts. -/
@[simp] theorem entries_append (notes more : List Note) :
    entries (notes ++ more) = entries notes ++ entries more :=
  List.filterMap_append

/-- Notes that only log leave no entry. -/
@[simp] theorem entries_messages (lines : List Message) :
    entries (lines.map Note.message) = [] := by
  rw [entries, List.filterMap_map, Note.filterMap_event?_message]

namespace Journal

/-- A journal is as it was if nothing is recorded. -/
@[simp] theorem record_nil (journal : Journal) : journal.record [] = journal := rfl

/-- Notes may be recorded in parts. What a journal keeps of a note depends on the note only, so it
makes no difference where the parts are cut. -/
theorem record_append (journal : Journal) (notes more : List Note) :
    journal.record (notes ++ more) = (journal.record notes).record more := by
  obtain ⟨keeps, kept⟩ := journal
  simp only [record, List.foldl_append]
  rfl

/-- A journal that keeps every entry of the trace. -/
def Traces (journal : Journal) : Prop :=
  ∀ entry, journal.keeps (.event entry) = true

/-- A journal that is asked for the trace keeps it, whatever it keeps of the log. -/
theorem traces_keeping (level? : Option Level) : (keeping true level?).Traces :=
  fun _ => rfl

/-- Recording leaves the kind of a journal as it is. -/
theorem Traces.record {journal : Journal} (h : journal.Traces) (notes : List Note) :
    (journal.record notes).Traces := by
  intro entry
  rw [keeps_record]
  exact h entry

/-- A journal that keeps the trace gains the trace entries among the notes, in their order. Log
lines go to the log, if their level is kept. -/
theorem events_record {journal : Journal} (h : journal.Traces) (notes : List Note) :
    (journal.record notes).events = journal.events ++ notes.filterMap Note.event? := by
  -- What a journal drops are lines of the log, as it keeps every entry of the trace.
  have hkept : (notes.filter journal.keeps).filterMap Note.event?
      = notes.filterMap Note.event? := by
    induction notes with
    | nil => rfl
    | cons note rest ih =>
        cases note with
        | event entry =>
            rw [List.filter_cons_of_pos (h entry), List.filterMap_cons, List.filterMap_cons, ih]
        | message line =>
            by_cases hline : journal.keeps (.message line) = true
            · rw [List.filter_cons_of_pos hline, List.filterMap_cons, List.filterMap_cons, ih]
            · rw [List.filter_cons_of_neg hline, ih]
              rfl
  rw [events, toList_record, List.filterMap_append, hkept, ← events]

end Journal

/-- The halt closes the trace of a run that is graded. -/
theorem Case.events_conclude {σ : Type} {journal : Journal} (h : journal.Traces) (case : Case)
    (cycles : Nat) (output : Bytes) (tally : Tally) (device : σ) :
    (case.conclude cycles output tally device journal).journal.events
      = journal.events ++ [.halted cycles] :=
  Journal.events_record h _

end TapeBench
