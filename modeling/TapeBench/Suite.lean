import TapeBench.Case

/-!
# `TapeBench.Suite`: many cases, one after the other

A suite runs its entries in order and goes on after failures. Entries may be listed without being
run.

* `Suite.Entry`: a case, to be run or to be listed only.
* `Suite.run`: runs a list of entries with a runner that has a state of its own.
* `Suite.Outcome`, `Suite.Result`, `Suite.Summary`: what came out of each entry and of all.
-/

set_option autoImplicit false

namespace TapeBench.Suite

/-- One entry of a suite:

- `case`: the case;
- `skip`: the entry is listed but not run. -/
structure Entry where
  case : Case
  skip : Bool := false
  deriving DecidableEq, Inhabited

/-- How one entry ended:

- `passed`: the run passed;
- `failed`: the run ended with a fault;
- `skipped`: the entry was not run. -/
inductive Outcome where
  | passed (report : Report)
  | failed (fault : Fault)
  | skipped
  deriving DecidableEq

namespace Outcome

/-- The outcome of a run with the given verdict. -/
def ofVerdict : Verdict → Outcome
  | .ok report => passed report
  | .error fault => failed fault

/-- The entry did not fail. -/
def isOk : Outcome → Bool
  | failed _ => false
  | passed _ | skipped => true

end Outcome

/-- Outcome of one entry, by name:

- `name`: name of the case;
- `outcome`: how the entry ended. -/
structure Result where
  name : String
  outcome : Outcome
  deriving DecidableEq

namespace Result

/-- One line about the entry. -/
def line (result : Result) : String :=
  match result.outcome with
  | .passed report => "PASS " ++ result.name ++ " (" ++ toString report.cycles ++ " cycles)"
  | .failed fault => "FAIL " ++ result.name ++ ": " ++ fault.message
  | .skipped => "SKIP " ++ result.name

/-- The log line about the entry. -/
def note (result : Result) : Note :=
  .message (.entryFinished (!result.outcome.isOk) result.line)

end Result

/-- How many entries ended in which way:

- `passed`: entries that passed;
- `failed`: entries that failed;
- `skipped`: entries that were not run. -/
structure Summary where
  passed : Nat := 0
  failed : Nat := 0
  skipped : Nat := 0
  deriving DecidableEq, Inhabited

namespace Summary

/-- Number of entries. -/
def total (summary : Summary) : Nat :=
  summary.passed + summary.failed + summary.skipped

/-- Counts one more entry. -/
def count (summary : Summary) : Outcome → Summary
  | .passed _ => { summary with passed := summary.passed + 1 }
  | .failed _ => { summary with failed := summary.failed + 1 }
  | .skipped => { summary with skipped := summary.skipped + 1 }

/-- One line about the suite. -/
def line (summary : Summary) : String :=
  toString summary.passed ++ " passed, " ++ toString summary.failed ++ " failed, "
    ++ toString summary.skipped ++ " skipped"

end Summary

/-- Counts the entries of a finished suite. -/
def summarize (results : List Result) : Summary :=
  results.foldl (fun summary result => summary.count result.outcome) {}

/-- No entry failed. -/
def allOk (results : List Result) : Bool :=
  results.all fun result => result.outcome.isOk

/-- Takes up one entry. A skipped entry does not reach the runner. -/
def runEntry {τ : Type} (runner : Case → τ → Journal → Run τ) (entry : Entry) (state : τ)
    (journal : Journal) : Outcome × τ × Journal :=
  if entry.skip then
    (.skipped, state, journal)
  else
    match runner entry.case state journal with
    | ⟨verdict, state, journal⟩ => (.ofVerdict verdict, state, journal)

/-- Runs the entries in order. The runner threads a state through the runs; each entry is logged
when it is finished. -/
def run {τ : Type} (runner : Case → τ → Journal → Run τ) :
    (entries : List Entry) → (state : τ) → Journal → List Result × τ × Journal
  | [], state, journal => ([], state, journal)
  | entry :: rest, state, journal =>
    match runEntry runner entry state journal with
    | (outcome, state, journal) =>
      let result : Result := ⟨entry.case.name, outcome⟩
      match run runner rest state (journal.record [result.note]) with
      | (results, state, journal) => (result :: results, state, journal)

end TapeBench.Suite
