import TapeBench.Proofs.Core.Latency

/-!
# `TapeBench.Proofs.Core.Listening`: the core listens behind a read only

Between two reads a device may show anything on the input of the core: the value of the read before,
zero, or whatever is left on the pins. A run of the core is the same for all of them.

* `Core.fed`: the core behind some edges from reset.
* `Core.listensAt`: the edges that come right behind a read.
* `Core.consumes_fed`: these are the edges that consume a value.
* `Core.listens_behind_reads`: runs whose inputs agree at these edges are the same, and no other
  edge takes notice of the input.
-/

set_option autoImplicit false

namespace TapeBench.Core

/-- The core behind some edges from reset, from what its input showed at each of them. -/
def fed (inputs : List UInt8) : Core :=
  inputs.foldl edge {}

/-- The cycle right before edge number `k` showed a read. There is no cycle before the first edge,
which has number zero. -/
def listensAt (inputs : List UInt8) : (k : Nat) → Bool
  | 0 => false
  | k + 1 => (fed (inputs.take k)).request.op.isRead

/-- One edge more is the last edge behind the others. -/
theorem fed_concat (inputs : List UInt8) (value : UInt8) :
    fed (inputs ++ [value]) = (fed inputs).edge value :=
  List.foldl_append

/-- An edge consumes a value exactly if it comes right behind a read. -/
theorem consumes_fed {inputs : List UInt8} {k : Nat} (hk : k ≤ inputs.length) :
    (fed (inputs.take k)).consumes = listensAt inputs k := by
  cases k with
  | zero => rfl
  | succ k =>
      rw [List.take_succ_eq_append_getElem hk, fed_concat, consumes_edge]
      rfl

/-- Inputs that agree right behind each read lead to the same states, edge by edge. Where the inputs
differ the core does not listen, and it shows its next read from the state that both have led to. -/
theorem fed_take_congr {inputs others : List UInt8} (hlength : inputs.length = others.length)
    (hagree : ∀ k, listensAt inputs k = true → inputs[k]? = others[k]?) (k : Nat) :
    fed (inputs.take k) = fed (others.take k) := by
  -- Induction on the edges: the states in front of an edge are the same, so both consume a value
  -- there or neither does.
  induction k with
  | zero => rfl
  | succ k ih =>
      rcases Nat.lt_or_ge k inputs.length with hk | hk
      · have hother : k < others.length := hlength ▸ hk
        rw [List.take_succ_eq_append_getElem hk, List.take_succ_eq_append_getElem hother,
          fed_concat, fed_concat, ← ih]
        refine edge_congr ?_
        intro hconsumes
        have hvalues := hagree k (consumes_fed (Nat.le_of_lt hk) ▸ hconsumes)
        rw [List.getElem?_eq_getElem hk, List.getElem?_eq_getElem hother] at hvalues
        exact Option.some.inj hvalues
      · -- Behind the last edge nothing happens any more.
        rw [List.take_of_length_le hk, List.take_of_length_le (hlength ▸ hk)] at ih
        rwa [List.take_of_length_le (Nat.le_succ_of_le hk),
          List.take_of_length_le (Nat.le_succ_of_le (hlength ▸ hk))]

/-- Two sequences of inputs that agree at every edge right behind a read take the core from reset
through the same states, in which it shows the same requests. The first edge, and each edge that
does not come right behind a read, ignore the input altogether. -/
theorem listens_behind_reads :
    (∀ inputs others : List UInt8, inputs.length = others.length →
        (∀ k, listensAt inputs k = true → inputs[k]? = others[k]?) →
          ∀ k, fed (inputs.take k) = fed (others.take k)
            ∧ (fed (inputs.take k)).request = (fed (others.take k)).request)
      ∧ ∀ inputs, listensAt inputs inputs.length = false →
        ∀ value other, (fed inputs).edge value = (fed inputs).edge other := by
  refine ⟨?_, ?_⟩
  · intro inputs others hlength hagree k
    have hstates := fed_take_congr hlength hagree k
    exact ⟨hstates, congrArg request hstates⟩
  · intro inputs hdeaf
    have hconsumes := consumes_fed (Nat.le_refl inputs.length)
    rw [List.take_length, hdeaf] at hconsumes
    exact edge_of_not_consumes hconsumes

/-- An increment of a cell that holds five, and the fetch behind it. Only the second and the fourth
of these bytes come back for a read. -/
theorem listens_behind_reads_increment :
    (∀ k, listensAt [9, 43, 7, 5, 3, 2] k = true →
        [9, 43, 7, 5, 3, 2][k]? = ([0, 43, 1, 5, 6, 43] : List UInt8)[k]?)
      ∧ fed [9, 43, 7, 5, 3, 2] = fed [0, 43, 1, 5, 6, 43]
      ∧ fed [0, 43, 1, 5, 6, 43] = ⟨1, 0, .decode⟩
      ∧ listensAt [9, 43, 7, 5, 3] 5 = false
      ∧ (fed [9, 43, 7, 5, 3]).edge 2 = (fed [9, 43, 7, 5, 3]).edge 43 := by
  have hagree : ∀ k, listensAt [9, 43, 7, 5, 3, 2] k = true →
      [9, 43, 7, 5, 3, 2][k]? = ([0, 43, 1, 5, 6, 43] : List UInt8)[k]? := by
    intro k hlistens
    match k with
    | 0 | 2 | 4 | 5 => cases hlistens
    | 1 | 3 => rfl
    | _ + 6 => rfl
  obtain ⟨hsame, hdeaf⟩ := listens_behind_reads
  exact ⟨hagree, (hsame [9, 43, 7, 5, 3, 2] [0, 43, 1, 5, 6, 43] rfl hagree 6).1, rfl, rfl,
    hdeaf _ rfl 2 43⟩

end TapeBench.Core
