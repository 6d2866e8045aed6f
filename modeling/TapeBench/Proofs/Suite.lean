import TapeBench.Recorded
import TapeBench.Suite

/-!
# `TapeBench.Proofs.Suite`: a suite loses, reorders and masks nothing

The runner of a suite may do anything: it has a state of its own, may fail as often as it likes, and
may keep a different journal than it was given. So its calls are taken down, each with what the
runner was given and what it returned, and the suite is compared with them.

* `Attempt`, `recording`: a call of a runner, and the runner with its calls taken down.
* `Reported`: the results of a suite, from its entries and the calls.
* `run_reported`: every suite gives them, and the runner takes its state from one call to the next.
* `summarize_eq`, `allOk_iff`: the summary counts the results.
* `suite_faithful`: all of it together.
-/

set_option autoImplicit false

namespace TapeBench.Suite

variable {τ : Type}

/-- One call of a runner:

- `case`: the case that it was given;
- `state`: the state that it was given;
- `journal`: the journal that it was given;
- `run`: what it returned. -/
structure Attempt (τ : Type) where
  case : Case
  state : τ
  journal : Journal
  run : Run τ

/-- The runner, with its calls taken down. -/
def recording (runner : Case → τ → Journal → Run τ) (case : Case)
    (recorded : Recorded (Attempt τ) τ) (journal : Journal) : Run (Recorded (Attempt τ) τ) :=
  let run := runner case recorded.device journal
  ⟨run.verdict, ⟨run.device, recorded.calls.push ⟨case, recorded.device, journal, run⟩⟩,
    run.journal⟩

/-- The entries that are run. -/
def live (entries : List Entry) : List Entry :=
  entries.filter fun entry => !entry.skip

/-- The results of some entries, from the calls of the runner:

- `names`: every entry has a result, in its place and by its name;
- `skipped`: the result of a skipped entry says so;
- `outcomes`: the results of the others are those of the calls, in order. A call that returned a
  report is reported as passed, with this report, and one that returned a fault as failed, with this
  fault. -/
structure Reported (entries : List Entry) (attempts : List (Attempt τ)) (results : List Result) :
    Prop where
  names : results.map Result.name = entries.map fun entry => entry.case.name
  skipped : ∀ entry result, (entry, result) ∈ entries.zip results → entry.skip = true →
    result.outcome = .skipped
  outcomes : ((entries.zip results).filter fun (entry, _) => !entry.skip).map (·.2.outcome)
    = attempts.map fun attempt =>
        match attempt.run.verdict with
        | .ok report => .passed report
        | .error fault => .failed fault

/-- Calls that lead from one state of the runner to another:

- `cases`: they were made for these cases, in order;
- `returned`: each of them returned what the runner gives for what it was given;
- `threaded`: the first was given the state `start`, each other one the state that the one before it
  returned, and the last one returned the state `last`. -/
structure Threaded (runner : Case → τ → Journal → Run τ) (cases : List Case) (start : τ)
    (attempts : List (Attempt τ)) (last : τ) : Prop where
  cases : attempts.map Attempt.case = cases
  returned : ∀ attempt ∈ attempts, attempt.run = runner attempt.case attempt.state attempt.journal
  threaded : attempts.map Attempt.state ++ [last]
    = start :: attempts.map fun attempt => attempt.run.device

section Entries

variable {runner : Case → τ → Journal → Run τ} {entry : Entry} {entries : List Entry}
  {attempts : List (Attempt τ)} {results : List Result} {state last : τ}

/-- A skipped entry in front is not run. -/
theorem live_cons_of_skip (h : entry.skip = true) : live (entry :: entries) = live entries :=
  List.filter_cons_of_neg (by simp [h])

/-- Any other entry in front is run before the rest. -/
theorem live_cons_of_not_skip (h : entry.skip = false) :
    live (entry :: entries) = entry :: live entries :=
  List.filter_cons_of_pos (by simp [h])

/-- A skipped entry in front needs no call. It takes a result of its own and none of the attempts.
-/
theorem Reported.skip (h : Reported entries attempts results) (hskip : entry.skip = true) :
    Reported (entry :: entries) attempts (⟨entry.case.name, .skipped⟩ :: results) where
  names := by
    rw [List.map_cons, List.map_cons, h.names]
  skipped := by
    intro other result hmem hother
    rw [List.zip_cons_cons, List.mem_cons] at hmem
    rcases hmem with hfirst | hrest
    · cases hfirst
      rfl
    · exact h.skipped other result hrest hother
  outcomes := by
    rw [List.zip_cons_cons, List.filter_cons_of_neg (by simp [hskip])]
    exact h.outcomes

/-- An entry in front that is run needs one more call in front. The suite gives it the outcome of
the verdict that this call returned. -/
theorem Reported.attempt (h : Reported entries attempts results) (hlive : entry.skip = false)
    (attempt : Attempt τ) :
    Reported (entry :: entries) (attempt :: attempts)
      (⟨entry.case.name, .ofVerdict attempt.run.verdict⟩ :: results) where
  names := by
    rw [List.map_cons, List.map_cons, h.names]
  skipped := by
    intro other result hmem hother
    rw [List.zip_cons_cons, List.mem_cons] at hmem
    rcases hmem with hfirst | hrest
    · cases hfirst
      rw [hlive] at hother
      cases hother
    · exact h.skipped other result hrest hother
  outcomes := by
    -- `outcomes` writes this match out itself, so that it does not rest on `Outcome.ofVerdict`.
    have hverdict : Outcome.ofVerdict attempt.run.verdict
        = match attempt.run.verdict with
          | .ok report => .passed report
          | .error fault => .failed fault := by
      cases attempt.run.verdict <;> rfl
    rw [List.zip_cons_cons, List.filter_cons_of_pos (by simp [hlive]), List.map_cons,
      List.map_cons, h.outcomes, hverdict]

/-- One more call in front. The calls behind it begin in the state that it returned. -/
theorem Threaded.cons {case : Case} {cases : List Case} {journal : Journal}
    (h : Threaded runner cases (runner case state journal).device attempts last) :
    Threaded runner (case :: cases) state
      (⟨case, state, journal, runner case state journal⟩ :: attempts) last where
  cases := by
    rw [List.map_cons, h.cases]
  returned := by
    intro attempt hmem
    rcases List.mem_cons.mp hmem with rfl | hrest
    · rfl
    · exact h.returned attempt hrest
  threaded := by
    rw [List.map_cons, List.map_cons, List.cons_append, h.threaded]

end Entries

/-- Every suite calls its runner for the entries that are not skipped, in order, and reports what
the calls returned. Taking the calls down changes nothing. -/
theorem run_reported (runner : Case → τ → Journal → Run τ) (entries : List Entry) (state : τ)
    (calls : Array (Attempt τ)) (journal : Journal) :
    ∃ (attempts : List (Attempt τ)) (results : List Result) (last : τ) (after : Journal),
      run runner entries state journal = (results, last, after)
      ∧ run (recording runner) entries ⟨state, calls⟩ journal
        = (results, ⟨last, calls ++ attempts.toArray⟩, after)
      ∧ Threaded runner ((live entries).map Entry.case) state attempts last
      ∧ Reported entries attempts results := by
  -- Induction on the entries: the first one leaves the runner in the state from which the others
  -- go on, whatever came out of it.
  induction entries generalizing state calls journal with
  | nil =>
      refine ⟨[], [], state, journal, rfl, by simp [run], ⟨rfl, ?_, rfl⟩, ⟨rfl, ?_, rfl⟩⟩
      · intro attempt hmem
        cases hmem
      · intro entry result hmem
        cases hmem
  | cons entry rest ih =>
      cases hskip : entry.skip with
      | true =>
          let line : Note := (⟨entry.case.name, .skipped⟩ : Result).note
          obtain ⟨attempts, results, last, after, hrun, hrecorded, hthreaded, hreported⟩ :=
            ih state calls (journal.record [line])
          refine ⟨attempts, _, last, after, ?_, ?_, ?_, hreported.skip hskip⟩
          · simp only [run, runEntry, hskip, if_true]
            rw [hrun]
          · simp only [run, runEntry, hskip, if_true]
            rw [hrecorded]
          · rw [live_cons_of_skip hskip]
            exact hthreaded
      | false =>
          let returned := runner entry.case state journal
          let line : Note := (⟨entry.case.name, .ofVerdict returned.verdict⟩ : Result).note
          let attempt : Attempt τ := ⟨entry.case, state, journal, returned⟩
          obtain ⟨attempts, results, last, after, hrun, hrecorded, hthreaded, hreported⟩ :=
            ih returned.device (calls.push attempt) (returned.journal.record [line])
          refine ⟨attempt :: attempts, _, last, after, ?_, ?_, ?_,
            hreported.attempt hskip attempt⟩
          · simp only [run, runEntry, hskip, Bool.false_eq_true, if_false]
            rw [hrun]
          · simp only [run, runEntry, hskip, Bool.false_eq_true, if_false, recording]
            rw [hrecorded]
            simp [attempt, returned]
          · rw [live_cons_of_not_skip hskip]
            exact hthreaded.cons

/-! ### The summary -/

/-- Counting one more entry moves the count of its kind. -/
theorem Summary.count_eq (summary : Summary) (outcome : Outcome) :
    summary.count outcome
      = ⟨summary.passed + if outcome matches .passed _ then 1 else 0,
          summary.failed + if outcome matches .failed _ then 1 else 0,
          summary.skipped + if outcome matches .skipped then 1 else 0⟩ := by
  cases outcome <;> rfl

/-- The summary counts the results of each kind. `summarize` is one pass that adds to three
counters. Each of them is the number of results of its kind. -/
theorem summarize_eq (results : List Result) :
    summarize results
      = ⟨results.countP (·.outcome matches .passed _), results.countP (·.outcome matches .failed _),
          results.countP (·.outcome matches .skipped)⟩ := by
  -- The counts are added to those of the results before.
  have hfold : ∀ summary : Summary,
      results.foldl (fun summary result => summary.count result.outcome) summary
        = ⟨summary.passed + results.countP (·.outcome matches .passed _),
            summary.failed + results.countP (·.outcome matches .failed _),
            summary.skipped + results.countP (·.outcome matches .skipped)⟩ := by
    induction results with
    | nil => intro summary; rfl
    | cons result rest ih =>
        intro summary
        rw [List.foldl_cons, ih, Summary.count_eq]
        simp only [List.countP_cons, Nat.add_assoc, Nat.add_comm]
  rw [summarize, hfold]
  simp

/-- Every result is of one kind. -/
theorem total_summarize (results : List Result) : (summarize results).total = results.length := by
  rw [summarize_eq, Summary.total]
  induction results with
  | nil => rfl
  | cons result rest ih =>
      simp only at ih
      simp only [List.countP_cons, List.length_cons, ← ih]
      cases result.outcome <;> simp <;> omega

/-- A suite is all right exactly if no entry is counted as failed. -/
theorem allOk_iff (results : List Result) :
    allOk results = true ↔ (summarize results).failed = 0 := by
  rw [summarize_eq, allOk, List.all_eq_true, List.countP_eq_zero]
  refine forall₂_congr ?_
  intro result _
  cases result.outcome <;> simp [Outcome.isOk]

/-- A suite loses, reorders and masks nothing, whatever its runner does. The runner is called for
the entries that are not skipped, once each and in order, also behind failures; it is given the
state that its last call returned. Every entry is reported in its place and by its name: a skipped
one as skipped, and each other one as passed with the report, or as failed with the fault, that its
call returned. The summary counts the results of each kind, and the suite is all right exactly if
none of them failed. -/
theorem suite_faithful (runner : Case → τ → Journal → Run τ) (entries : List Entry) (state : τ)
    (journal : Journal) :
    ∃ (attempts : List (Attempt τ)) (results : List Result) (last : τ) (after : Journal),
      run runner entries state journal = (results, last, after)
      ∧ run (recording runner) entries ⟨state, #[]⟩ journal
        = (results, ⟨last, attempts.toArray⟩, after)
      ∧ Threaded runner ((live entries).map Entry.case) state attempts last
      ∧ Reported entries attempts results
      ∧ summarize results
        = ⟨results.countP (·.outcome matches .passed _),
            results.countP (·.outcome matches .failed _),
            results.countP (·.outcome matches .skipped)⟩
      ∧ (summarize results).total = entries.length
      ∧ (allOk results = true ↔ (summarize results).failed = 0) := by
  obtain ⟨attempts, results, last, after, hrun, hrecorded, hthreaded, hreported⟩ :=
    run_reported runner entries state #[] journal
  have hlength : results.length = entries.length := by
    have hnames := congrArg List.length hreported.names
    rwa [List.length_map, List.length_map] at hnames
  rw [Array.empty_append] at hrecorded
  exact ⟨attempts, results, last, after, hrun, hrecorded, hthreaded, hreported,
    summarize_eq results, hlength ▸ total_summarize results, allOk_iff results⟩

/-- A runner that fails its second call is called again behind a skipped entry. -/
example :
    (run (fun case calls journal =>
        ⟨if calls = 1 then .error (.timeout 3) else .ok ⟨case.program.size, #[], {}⟩, calls + 1,
          journal⟩)
      [⟨{ name := "first", program := #[43] }, false⟩, ⟨{ name := "second" }, false⟩,
        ⟨{ name := "third" }, true⟩, ⟨{ name := "fourth" }, false⟩] 0 .silent).1
      = [⟨"first", .passed ⟨1, #[], {}⟩⟩, ⟨"second", .failed (.timeout 3)⟩, ⟨"third", .skipped⟩,
          ⟨"fourth", .passed ⟨0, #[], {}⟩⟩] :=
  rfl

end TapeBench.Suite
