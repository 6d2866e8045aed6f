import TapeBench.Step

/-!
# `TapeBench.Proofs.Reaches`: sequences of actions that succeed

A driver offers more than one action, and they may be mixed in any way. `Reaches act start history
notes last` says that the actions of `history` lead from `start` to `last` and leave `notes`, and
that none of them faults. A history tells of each action what it gave.

* `Reaches`: the relation. It grows at the end, as a history does.
* `attempt`: does some actions, unless one of them faults.
* `reaches_of_attempt`: the actions that were attempted lead where the attempt ended.
-/

set_option autoImplicit false

namespace TapeBench

variable {S A β : Type} {act : A → S → Step S β}

/-- The actions of a history, each with the value that it gave, lead from `start` to `last` and
leave notes. None of them faults. -/
inductive Reaches (act : A → S → Step S β) (start : S) : List (A × β) → List Note → S → Prop
  | refl : Reaches act start [] [] start
  | snoc {history : List (A × β)} {notes more : List Note} {state last : S} {action : A}
      {value : β} (before : Reaches act start history notes state)
      (taken : act action state = ⟨.ok value, last, more⟩) :
      Reaches act start (history ++ [(action, value)]) (notes ++ more) last

/-- Actions behind others. -/
theorem Reaches.trans {start middle last : S} {history later : List (A × β)}
    {notes more : List Note} (first : Reaches act start history notes middle)
    (second : Reaches act middle later more last) :
    Reaches act start (history ++ later) (notes ++ more) last := by
  -- By induction on the later actions, since a history grows at its end.
  induction second with
  | refl => simpa using first
  | snoc _ taken ih =>
      rw [← List.append_assoc, ← List.append_assoc]
      exact ih.snoc taken

/-- Does some actions one after the other, unless one of them faults. -/
def attempt (act : A → S → Step S β) : List A → S → Option (List (A × β) × List Note × S)
  | [], state => some ([], [], state)
  | action :: rest, state =>
    match act action state with
    | ⟨.error _, _, _⟩ => none
    | ⟨.ok value, next, notes⟩ =>
      (attempt act rest next).map fun (later, more, last) =>
        ((action, value) :: later, notes ++ more, last)

/-- Actions that were attempted without a fault lead where the attempt ended. The attempt can be
computed, so that a witness needs no derivation of its own. -/
theorem reaches_of_attempt {actions : List A} {start last : S} {history : List (A × β)}
    {notes : List Note} (h : attempt act actions start = some (history, notes, last)) :
    Reaches act start history notes last := by
  induction actions generalizing start history notes with
  | nil =>
      cases h
      exact .refl
  | cons action rest ih =>
      rw [attempt] at h
      split at h
      · cases h
      · rename_i value next front htaken
        obtain ⟨⟨later, more, _⟩, hrest, hsome⟩ := Option.map_eq_some_iff.mp h
        cases hsome
        -- The first action is a history by itself, and the others go on behind it.
        exact (Reaches.refl.snoc htaken).trans (ih hrest)

end TapeBench
