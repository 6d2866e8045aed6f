import TapeBench.Channel

/-!
# `TapeBench.Config`: limits and waiting times of a bench

* `Config`: the cycle budget, the waiting times and the policy for exhausted input.
* `Config.separatePin`: the preset that reads zeros behind the input on every encoding.
-/

set_option autoImplicit false

namespace TapeBench

/-- How a bench runs its cases:

- `cycleBudget`: cycles, or clock steps on the serial link, that a run may take;
- `settleNs`: nanoseconds for which a device is held after each clock transition;
- `resetWindowNs`: nanoseconds for which a clocked device is held in reset;
- `serialResetHoldNs`: nanoseconds for which a device on the serial link is held in reset;
- `onExhausted`: what a read past the end of the input gives, unless a case says otherwise. Without
  a policy the encoding decides. -/
structure Config where
  cycleBudget : UInt64 := 10000000
  settleNs : UInt32 := 10
  resetWindowNs : UInt32 := 10
  serialResetHoldNs : Nat := 5000000
  onExhausted : Option Exhaustion := none
  deriving DecidableEq, Inhabited

namespace Config

/-- The preset that reads zeros behind the end of the input on every encoding. -/
def separatePin : Config where
  onExhausted := some .separatePin

end Config

end TapeBench
