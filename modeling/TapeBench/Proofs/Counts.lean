import Mathlib.Order.Interval.Finset.Nat
import TapeBench.Proofs.Replay

/-!
# `TapeBench.Proofs.Counts`: what stores have counted behind a trace

An account lists the requests that stores have served. So it says how far each count, the output and
the input have moved, and how often the fallback was needed. The time of the transfers bounds how
many there can be: transfers of a kind that may not share a cycle are no more than the cycles.

* `Account.tally_eq`, `Account.size_output`: the counts and the output behind an account.
* `fallbacks`, `Account.fallbacks_eq`: the fallbacks that an account announces are the reads that
  the input was too short for.
* `Account.countP_le`: transfers that may not share a cycle are no more than the cycles.
-/

set_option autoImplicit false

namespace TapeBench

open Bus (Op Request)

/-- Number of the fallbacks that a trace announces. -/
def fallbacks (trace : List TraceEvent) : Nat :=
  trace.countP fun entry => entry matches .inputFallback _

/-- The fallbacks of two traces add up. -/
theorem fallbacks_append (trace more : List TraceEvent) :
    fallbacks (trace ++ more) = fallbacks trace + fallbacks more :=
  List.countP_append

/-- A request that is served announces one fallback if the fallback serves it, and none
otherwise. -/
theorem fallbacks_transferred (fellBack : Bool) (time : Nat) (request : Request) (value : UInt8) :
    fallbacks (Serial.transferred fellBack time request value) = if fellBack then 1 else 0 := by
  cases fellBack <;> rfl

namespace Peripheral

variable (bus : Peripheral) (request : Request)

/-- Only writes make the output longer, each by one byte. No write fails, so none is lost. -/
theorem size_output_resolve :
    (bus.resolve request).state.channel.output.size
      = bus.channel.output.size + if request.op = .writeIo then 1 else 0 := by
  obtain ⟨program, data, ⟨input, consumed, output, policy⟩, tally⟩ := bus
  obtain ⟨op, addr, value⟩ := request
  cases op with
  | readIo =>
      cases input with
      | cons byte rest => rfl
      | nil => cases policy <;> rfl
  | writeIo => exact Array.size_push _
  | noOp | readProgram | readData | writeData => rfl

/-- Only reads make the rest of the input shorter, each by one byte as long as there is one. Behind
the end the policy answers, and nothing is left to become shorter. -/
theorem remaining_resolve :
    (bus.resolve request).state.channel.remaining
      = bus.channel.remaining - if request.op = .readIo then 1 else 0 := by
  obtain ⟨program, data, ⟨input, consumed, output, policy⟩, tally⟩ := bus
  obtain ⟨op, addr, value⟩ := request
  cases op with
  | readIo =>
      cases input with
      | cons byte rest => rfl
      | nil => cases policy <;> rfl
  | noOp | readProgram | readData | writeData | writeIo => rfl

/-- Behind some requests, the output has grown by one byte for each write among them. -/
theorem size_output_behind (requests : List Request) :
    (bus.behind requests).channel.output.size
      = bus.channel.output.size + requests.countP fun request => request.op = .writeIo := by
  induction requests generalizing bus with
  | nil => rfl
  | cons request rest ih =>
      show ((bus.resolve request).state.behind rest).channel.output.size = _
      rw [ih, size_output_resolve, List.countP_cons]
      simp only [decide_eq_true_eq]
      omega

/-- Stores that serve every request count each operation as often as it was asked for. Requests that
fail are not counted, which is why `h` asks that all are answered. -/
theorem tally_behind_served {values : List UInt8} {requests : List Request}
    (h : bus.answers requests = values.map .ok) (op : Op) :
    (bus.behind requests).tally.get op
      = bus.tally.get op + requests.countP fun request => request.op = op := by
  induction requests generalizing bus values with
  | nil => rfl
  | cons request rest ih =>
      cases values with
      | nil => cases h
      | cons value later =>
          obtain ⟨hfirst, hrest⟩ := List.cons.inj h
          show ((bus.resolve request).state.behind rest).tally.get op = _
          rw [ih _ hrest, tally_resolve, hfirst, List.countP_cons]
          simp only [Except.isOk, Except.toBool, Bool.and_true, decide_eq_true_eq]
          omega

/-- Of the reads in a trace, the input serves as many as it has bytes, and each other one is
announced as a fallback. -/
theorem fallbacks_told (served : List Transfer) :
    fallbacks (bus.told served)
      = (served.countP fun transfer => transfer.request.op = .readIo) - bus.channel.remaining := by
  -- Induction on the transfers: a first read either takes a byte or finds none.
  induction served generalizing bus with
  | nil => simp [told, fallbacks]
  | cons transfer rest ih =>
      obtain ⟨time, request, value⟩ := transfer
      rw [told, fallbacks_append, fallbacks_transferred, ih, remaining_resolve, List.countP_cons]
      by_cases hread : request.op = .readIo
      · by_cases hempty : bus.channel.remaining = 0
        · simp [hread, hempty, Nat.add_comm]
        · simp only [hread, hempty, decide_true, decide_false, Bool.and_false, Bool.false_eq_true,
            if_true, if_false]
          omega
      · simp [hread]

end Peripheral

namespace Account

variable {order : Transfer → Transfer → Prop} {start stop : Nat} {bus next : Peripheral}
  {trace : List TraceEvent}

/-- An operation was counted once for each of its transfers. -/
theorem tally_eq (h : Account order start stop bus trace next) (op : Op) :
    next.tally.get op = bus.tally.get op
      + (transfers trace).countP fun transfer => transfer.request.op = op := by
  have hanswered := h.answered
  rw [← h.reached, bus.tally_behind_served (hanswered.trans List.map_map.symm), List.countP_map]
  rfl

/-- The output has grown by a byte for each write. -/
theorem size_output (h : Account order start stop bus trace next) :
    next.channel.output.size = bus.channel.output.size
      + (transfers trace).countP fun transfer => transfer.request.op = .writeIo := by
  rw [← h.reached, bus.size_output_behind, List.countP_map]
  rfl

/-- As many fallbacks were announced as there are reads that the input was too short for. -/
theorem fallbacks_eq (h : Account order start stop bus trace next) :
    fallbacks trace
      = ((transfers trace).countP fun transfer => transfer.request.op = .readIo)
        - bus.channel.remaining := by
  have htold := congrArg fallbacks h.told
  rwa [bus.fallbacks_told] at htold

/-- Transfers of a kind that are never in the same cycle are no more than the cycles. Their times
are strictly increasing and all within the account, so they fit into its length. -/
theorem countP_le (h : Account order start stop bus trace next) (kind : Transfer → Bool)
    (hkind : ∀ first second, order first second → kind first = true → kind second = true →
      first.time < second.time) :
    (transfers trace).countP kind ≤ stop - start := by
  -- The times of these transfers, as a finite set between `start` and `stop`.
  let times := ((transfers trace).filter kind).map Transfer.time
  have hincreasing : times.Pairwise (· < ·) := by
    rw [List.pairwise_map, List.pairwise_filter]
    exact h.ordered.imp fun horder hfirst hsecond => hkind _ _ horder hfirst hsecond
  have hwithin : times.toFinset ⊆ Finset.Ico start stop := by
    intro time htime
    obtain ⟨transfer, htransfer, rfl⟩ := List.mem_map.mp (List.mem_toFinset.mp htime)
    rw [Finset.mem_Ico]
    exact h.within transfer (List.mem_filter.mp htransfer).1
  calc (transfers trace).countP kind = times.length := by
        rw [List.countP_eq_length_filter, List.length_map]
    _ = times.toFinset.card :=
        (List.toFinset_card_of_nodup (hincreasing.imp Nat.ne_of_lt)).symm
    _ ≤ (Finset.Ico start stop).card := Finset.card_le_card hwithin
    _ = stop - start := Nat.card_Ico start stop

end Account

end TapeBench
