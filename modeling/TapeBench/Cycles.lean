import TapeBench.Case
import TapeBench.Device

/-!
# `TapeBench.Cycles`: cycles up to a halt

Runs over the addressed bus and over separate pins have one shape: after the reset sequence the
device takes cycles until it reports a halt, until a cycle faults, or until the budget is used up.

* `Stop`: the three ends.
* `cyclesUntilHalted`: the loop. The halt is looked at before the budget, so a device that halts
  with the last cycle of the budget has halted, and a device that is out of budget took exactly
  as many cycles as the budget allows.
-/

set_option autoImplicit false

namespace TapeBench

/-- How a bounded sequence of cycles ended:

- `halted`: the device reported a halt;
- `exhausted`: the budget was used up;
- `faulted`: a cycle faulted. -/
inductive Stop where
  | halted
  | exhausted
  | faulted (fault : Fault)
  deriving DecidableEq

/-- Takes cycles from `state` until the device reports a halt, at most as many as `budget` says,
and adds the notes of every cycle to the journal. -/
def cyclesUntilHalted {S : Type} (halted : S → Bool) (cycle : S → Step S Unit) :
    (budget : Nat) → (state : S) → Journal → Stop × S × Journal
  | 0, state, journal =>
    -- A halt behind the last cycle of the budget is still a halt.
    if halted state then (.halted, state, journal) else (.exhausted, state, journal)
  | budget + 1, state, journal =>
    if halted state then
      (.halted, state, journal)
    else
      match cycle state with
      | ⟨.ok (), state, notes⟩ =>
        cyclesUntilHalted halted cycle budget state (journal.record notes)
      | ⟨.error fault, state, notes⟩ => (.faulted fault, state, journal.record notes)

end TapeBench
