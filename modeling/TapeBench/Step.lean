import TapeBench.Fault
import TapeBench.Journal

/-!
# `TapeBench.Step`: one action of the bench

Drivers and stores act in steps. A step changes a state, gives a value or a fault, and leaves
notes. A fault does not undo the state: what happened before it stays, and so do the notes.

* `Step`: the outcome of one action.
* `Step.andThen`: one action after another; the second takes place only if the first gave a value.

`andThen_done` and `andThen_fail` say what becomes of the second action, and `andThen_assoc` that
a sequence of actions may be grouped either way.
-/

set_option autoImplicit false

namespace TapeBench

/-- Values and errors can be compared if both kinds can. -/
instance exceptDecidableEq {ε α : Type} [DecidableEq ε] [DecidableEq α] :
    DecidableEq (Except ε α)
  | .ok first, .ok second => decidable_of_iff (first = second) (by simp)
  | .error first, .error second => decidable_of_iff (first = second) (by simp)
  | .ok _, .error _ => isFalse (by simp)
  | .error _, .ok _ => isFalse (by simp)

/-- Outcome of one action on a state of type `S` that is meant to give a value of type `α`:

- `result`: the value, or the fault that stopped the action;
- `state`: the state that the action left behind;
- `notes`: what was observed, in order. -/
structure Step (S α : Type) where
  result : Except Fault α
  state : S
  notes : List Note

namespace Step

variable {S T α β γ : Type}

/-- An action that gives a value. -/
def done (value : α) (state : S) (notes : List Note) : Step S α :=
  ⟨.ok value, state, notes⟩

/-- An action that stopped with a fault before anything was observed. -/
def fail (fault : Fault) (state : S) : Step S α :=
  ⟨.error fault, state, []⟩

/-- Continues with `next` if the first action gave a value. The notes of both are kept. -/
def andThen (first : Step S α) (next : α → S → Step S β) : Step S β :=
  match first with
  | ⟨.ok value, state, notes⟩ =>
    match next value state with
    | ⟨result, state, more⟩ => ⟨result, state, notes ++ more⟩
  | ⟨.error fault, state, notes⟩ => ⟨.error fault, state, notes⟩

/-- Views the state of an action as a part of a larger state. -/
def within (embed : S → T) (step : Step S α) : Step T α :=
  match step with
  | ⟨result, state, notes⟩ => ⟨result, embed state, notes⟩

/-- After a value the second action takes place, behind the notes of the first. -/
theorem andThen_done (value : α) (state : S) (notes : List Note) (next : α → S → Step S β) :
    (done value state notes).andThen next
      = ⟨(next value state).result, (next value state).state,
          notes ++ (next value state).notes⟩ := rfl

/-- After a fault the second action does not take place. -/
@[simp] theorem andThen_fail (fault : Fault) (state : S) (next : α → S → Step S β) :
    (fail fault state : Step S α).andThen next = fail fault state := rfl

/-- A sequence of three actions may be grouped either way. -/
theorem andThen_assoc (first : Step S α) (next : α → S → Step S β) (last : β → S → Step S γ) :
    (first.andThen next).andThen last
      = first.andThen fun value state => (next value state).andThen last := by
  obtain ⟨result, state, notes⟩ := first
  cases result with
  | error fault => rfl
  | ok value =>
    simp only [andThen]
    generalize next value state = second
    obtain ⟨result, state, more⟩ := second
    cases result with
    | error fault => rfl
    | ok value => simp only [List.append_assoc]

end Step

end TapeBench
