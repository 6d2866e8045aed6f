import Mathlib.Data.List.Induction

/-!
# `TapeBench.Proofs.Meaning.Brackets`: which bracket belongs to which

A `]` closes the innermost `[` that is open where it stands. That settles which brackets belong
together, for jumps in both directions: `partnerOfClose?` looks a `]` up in the stack of open
brackets, and `partnerOfOpen?` looks for the `]` that closes a `[`.

A walk finds the partner without a stack. `nested` goes over the bytes from a bracket on and counts
the brackets that are open. The two main results say that it stops at the partner.

* `partnerOfOpen?_eq_nested`: a walk to the right from a `[`.
* `partnerOfClose?_eq_nested`: a walk to the left from a `]`.
-/

set_option autoImplicit false

namespace TapeBench.Meaning

/-! ### Partners -/

/-- Positions of the open `[` behind a stretch of source that begins at `pos`, innermost first.
The brackets in `opened` were open before the stretch. -/
def openedFrom (pos : Nat) (opened : List Nat) : List UInt8 → List Nat
  | [] => opened
  | byte :: rest =>
    if byte = '['.toUInt8 then openedFrom (pos + 1) (pos :: opened) rest
    else if byte = ']'.toUInt8 then openedFrom (pos + 1) opened.tail rest
    else openedFrom (pos + 1) opened rest

/-- Positions of the open `[` behind a source, innermost first. -/
def opened (source : List UInt8) : List Nat :=
  openedFrom 0 [] source

/-- Position of the `[` that a `]` at `pos` closes. -/
def partnerOfClose? (source : List UInt8) (pos : Nat) : Option Nat :=
  (opened (source.take pos)).head?

/-- The byte at `pos` is a `]` and closes the `[` at `target`. -/
def closes (source : List UInt8) (target pos : Nat) : Bool :=
  source[pos]? = some ']'.toUInt8 && partnerOfClose? source pos = some target

/-- Position of the `]` that closes a `[` at `pos`. -/
def partnerOfOpen? (source : List UInt8) (pos : Nat) : Option Nat :=
  (List.range source.length).find? (closes source pos)

/-- Walks over bytes with `inner` open brackets besides the one that is to be closed, and gives
the number of bytes in front of the one that closes it. -/
def nested (opener closer : UInt8) : (inner : Nat) → List UInt8 → Option Nat
  | _, [] => none
  | inner, byte :: rest =>
    if byte = opener then (nested opener closer (inner + 1) rest).map (· + 1)
    else if byte = closer then
      match inner with
      | 0 => some 0
      | inner + 1 => (nested opener closer inner rest).map (· + 1)
    else (nested opener closer inner rest).map (· + 1)

/-- What a walk does at one byte. -/
theorem nested_cons (opener closer byte : UInt8) (inner : Nat) (rest : List UInt8) :
    nested opener closer inner (byte :: rest)
      = if byte = opener then (nested opener closer (inner + 1) rest).map (· + 1)
        else if byte = closer then
          match inner with
          | 0 => some 0
          | inner + 1 => (nested opener closer inner rest).map (· + 1)
        else (nested opener closer inner rest).map (· + 1) :=
  nested.eq_def opener closer inner (byte :: rest)

/-- A walk stops at one of its bytes, if it stops. The position that `nested` gives is that of the
closer, counted from where the walk began. -/
theorem lt_of_nested {opener closer : UInt8} {inner passed : Nat} {bytes : List UInt8}
    (h : nested opener closer inner bytes = some passed) : passed < bytes.length := by
  induction bytes generalizing inner passed with
  | nil => cases h
  | cons byte rest ih =>
      -- However the walk goes on, it stops one byte further than the walk over the rest.
      have hlater : ∀ {inner' : Nat}, (nested opener closer inner' rest).map (· + 1) = some passed →
          passed < (byte :: rest).length := by
        intro inner' hmap
        obtain ⟨passed', hpassed, rfl⟩ := Option.map_eq_some_iff.mp hmap
        exact Nat.succ_lt_succ (ih hpassed)
      rw [nested_cons] at h
      split at h
      · exact hlater h
      · split at h
        · cases inner with
          | zero => cases h; exact Nat.zero_lt_succ _
          | succ inner => exact hlater h
        · exact hlater h

/-! ### The stack of open brackets -/

/-- A stretch may be cut in two, with the brackets that are open at the cut handed on to the second
part. -/
theorem openedFrom_append (pos : Nat) (stack : List Nat) (front back : List UInt8) :
    openedFrom pos stack (front ++ back)
      = openedFrom (pos + front.length) (openedFrom pos stack front) back := by
  induction front generalizing pos stack with
  | nil => rfl
  | cons byte rest ih =>
      have hpos : pos + (byte :: rest).length = pos + 1 + rest.length := by
        rw [List.length_cons]; omega
      rw [List.cons_append, hpos]
      simp only [openedFrom]
      split
      · exact ih _ _
      · split
        · exact ih _ _
        · exact ih _ _

/-- What one more byte does to the stack. -/
theorem opened_concat (source : List UInt8) (byte : UInt8) :
    opened (source ++ [byte])
      = if byte = '['.toUInt8 then source.length :: opened source
        else if byte = ']'.toUInt8 then (opened source).tail
        else opened source := by
  rw [opened, openedFrom_append, Nat.zero_add]
  rfl

/-- Every open bracket stands inside the source, as its position was put on the stack when the scan
came by. -/
theorem lt_of_mem_opened {source : List UInt8} {pos : Nat} (h : pos ∈ opened source) :
    pos < source.length := by
  -- Induction from the right, because `opened_concat` says what the last byte does.
  induction source using List.reverseRecOn with
  | nil => cases h
  | append_singleton source byte ih =>
      rw [List.length_append, List.length_singleton]
      rw [opened_concat] at h
      split at h
      · rcases List.mem_cons.mp h with rfl | h
        · exact Nat.lt_succ_self _
        · exact Nat.lt_succ_of_lt (ih h)
      · split at h
        · exact Nat.lt_succ_of_lt (ih (List.mem_of_mem_tail h))
        · exact Nat.lt_succ_of_lt (ih h)

/-! ### Walks to the left -/

/-- A walk to the left finds the open brackets one after the other: with `inner` brackets to pass
over, it stops at the entry `inner` of the stack. -/
theorem getElem?_opened (source : List UInt8) (inner : Nat) :
    (opened source)[inner]?
      = (nested ']'.toUInt8 '['.toUInt8 inner source.reverse).map
          fun passed => source.length - 1 - passed := by
  -- The last byte of the source is the first one of the walk, so the induction goes from the
  -- right, with `inner` free.
  induction source using List.reverseRecOn generalizing inner with
  | nil => rfl
  | append_singleton source byte ih =>
      -- One byte further to the right, every distance from the right end grows by one.
      have hshift : ∀ found : Option Nat,
          (found.map (· + 1)).map (fun passed => (source ++ [byte]).length - 1 - passed)
            = found.map fun passed => source.length - 1 - passed := by
        intro found
        cases found with
        | none => rfl
        | some passed =>
            simp only [Option.map_some, List.length_append, List.length_singleton]
            congr 1
            omega
      rw [List.reverse_append, List.reverse_singleton, List.singleton_append, opened_concat,
        nested_cons]
      by_cases hopen : byte = '['.toUInt8
      · have hclose : ¬ byte = ']'.toUInt8 := by rw [hopen]; decide
        rw [if_pos hopen, if_neg hclose, if_pos hopen]
        cases inner with
        | zero => simp
        | succ inner => rw [hshift, List.getElem?_cons_succ, ih]
      · rw [if_neg hopen]
        by_cases hclose : byte = ']'.toUInt8
        · rw [if_pos hclose, if_pos hclose, hshift, ← ih, List.getElem?_tail]
        · rw [if_neg hclose, if_neg hclose, if_neg hopen, hshift, ih]

/-- A walk to the left from a `]` stops at the `[` that it closes. -/
theorem partnerOfClose?_eq_nested (front back : List UInt8) :
    partnerOfClose? (front ++ back) front.length
      = (nested ']'.toUInt8 '['.toUInt8 0 front.reverse).map
          fun passed => front.length - 1 - passed := by
  rw [partnerOfClose?, List.take_left, List.head?_eq_getElem?, getElem?_opened]

/-! ### Walks to the right -/

/-- The first position from `start` on that closes the bracket at `target`, as a distance from
`start`, if there is one. -/
def FirstClosing (source : List UInt8) (target start : Nat) : Option Nat → Prop
  | some passed =>
    closes source target (start + passed) = true
      ∧ ∀ i < passed, closes source target (start + i) = false
  | none => ∀ i, closes source target (start + i) = false

/-- A position that does not close the bracket is passed over. The first closing one is then as far
from the next position, and one more from this one. -/
theorem FirstClosing.succ {source : List UInt8} {target start : Nat} {found : Option Nat}
    (hstart : closes source target start = false)
    (h : FirstClosing source target (start + 1) found) :
    FirstClosing source target start (found.map (· + 1)) := by
  have hshift : ∀ i, start + (i + 1) = start + 1 + i := by
    intro i
    omega
  -- The positions from `start` on are `start` itself and those from the next one on.
  cases found with
  | none =>
      intro i
      cases i with
      | zero => exact hstart
      | succ i => rw [hshift]; exact h i
  | some passed =>
      refine ⟨by rw [hshift]; exact h.1, ?_⟩
      intro i hi
      cases i with
      | zero => exact hstart
      | succ i => rw [hshift]; exact h.2 i (Nat.lt_of_succ_lt_succ hi)

/-- Whether a byte closes a bracket depends on the byte and on the stack in front of it. -/
theorem closes_length (front back : List UInt8) (byte : UInt8) (target : Nat) :
    closes (front ++ byte :: back) target front.length
      = (byte = ']'.toUInt8 && (opened front).head? = some target) := by
  simp [closes, partnerOfClose?]

/-- Behind the end of a source no bracket is closed. -/
theorem closes_of_length_le {source : List UInt8} {target pos : Nat} (h : source.length ≤ pos) :
    closes source target pos = false := by
  simp [closes, List.getElem?_eq_none h]

/-- A bracket is closed behind where it stands: at its own position and before it is not yet open.
-/
theorem closes_of_le {source : List UInt8} {target pos : Nat} (h : pos ≤ target) :
    closes source target pos = false := by
  rw [closes, Bool.and_eq_false_imp]
  intro _
  rw [decide_eq_false_iff_not]
  intro hpartner
  -- The partner was open in front of `pos`, so it stands in front of `pos`.
  have hmem : target ∈ opened (source.take pos) := List.mem_of_mem_head? hpartner
  have hlt := lt_of_mem_opened hmem
  rw [List.length_take] at hlt
  omega

/-- A walk to the right stops at the first `]` that closes the bracket at `target`. In front of
the walk the stack holds the entries `inner` on top of that bracket. -/
theorem firstClosing_nested (front rest : List UInt8) (inner outer : List Nat) (target : Nat)
    (hstack : opened front = inner ++ target :: outer) (htarget : target < front.length)
    (hinner : target ∉ inner) :
    FirstClosing (front ++ rest) target front.length
      (nested '['.toUInt8 ']'.toUInt8 inner.length rest) := by
  -- Induction on the bytes ahead. Each byte moves from `rest` to the end of `front`, and `hstack`
  -- follows what it does to the stack.
  induction rest generalizing front inner with
  | nil =>
      intro i
      exact closes_of_length_le (by rw [List.append_nil]; omega)
  | cons byte rest ih =>
      have hsource : front ++ byte :: rest = front ++ [byte] ++ rest := by simp
      have hlength : (front ++ [byte]).length = front.length + 1 := by simp
      have hlonger : target < (front ++ [byte]).length := by omega
      have hbelow := opened_concat front byte
      rw [hstack] at hbelow
      have hhere := closes_length front rest byte target
      rw [hstack] at hhere
      rw [nested_cons]
      by_cases hopen : byte = '['.toUInt8
      · -- One more bracket is open above `target`.
        have hclose : ¬ byte = ']'.toUInt8 := by rw [hopen]; decide
        rw [if_pos hopen]
        rw [if_pos hopen] at hbelow
        have hnext := ih (front ++ [byte]) (front.length :: inner) hbelow hlonger
          (List.not_mem_cons_of_ne_of_not_mem (Nat.ne_of_lt htarget) hinner)
        rw [← hsource, hlength] at hnext
        exact hnext.succ (by simp [hhere, hclose])
      · rw [if_neg hopen]
        rw [if_neg hopen] at hbelow
        by_cases hclose : byte = ']'.toUInt8
        · rw [if_pos hclose]
          rw [if_pos hclose] at hbelow
          cases inner with
          | nil =>
              -- `target` is on top of the stack, so this byte closes it.
              exact ⟨by rw [Nat.add_zero, hhere]; simp [hclose], fun i hi => by omega⟩
          | cons top inner =>
              -- Another bracket is on top, so this byte closes that one.
              have htop : top ≠ target := fun h => hinner (h ▸ List.mem_cons_self)
              have hnext := ih (front ++ [byte]) inner hbelow hlonger
                (fun h => hinner (List.mem_cons_of_mem top h))
              rw [← hsource, hlength] at hnext
              exact hnext.succ (by simp [hhere, htop])
        · rw [if_neg hclose]
          rw [if_neg hclose] at hbelow
          have hnext := ih (front ++ [byte]) inner hbelow hlonger hinner
          rw [← hsource, hlength] at hnext
          exact hnext.succ (by simp [hhere, hclose])

/-- The search for the position that closes a bracket finds the first one from `start` on, if no
position in front of `start` closes it. -/
theorem find?_closes {source : List UInt8} {target start : Nat} {found : Option Nat}
    (h : FirstClosing source target start found)
    (hbefore : ∀ i < start, closes source target i = false) :
    (List.range source.length).find? (closes source target) = found.map (start + ·) := by
  cases found with
  -- No closer from `start` on, and none before: the search runs through the whole text.
  | none =>
      rw [Option.map_none, List.find?_range_eq_none]
      intro i _
      rcases Nat.lt_or_ge i start with hlt | hge
      · simp [hbefore i hlt]
      · obtain ⟨d, rfl⟩ := Nat.exists_eq_add_of_le hge
        simp [h d]
  | some passed =>
      obtain ⟨hcloses, hfirst⟩ := h
      rw [Option.map_some, List.find?_range_eq_some]
      refine ⟨hcloses, ?_, ?_⟩
      · -- A closer that is found lies inside of the text, since past its end nothing closes.
        rw [List.mem_range]
        by_contra hle
        rw [closes_of_length_le (Nat.not_lt.mp hle)] at hcloses
        cases hcloses
      · intro i hi
        rcases Nat.lt_or_ge i start with hlt | hge
        · simp [hbefore i hlt]
        · obtain ⟨d, rfl⟩ := Nat.exists_eq_add_of_le hge
          simp [hfirst d (by omega)]

/-- A walk to the right from a `[` stops at the `]` that closes it. On the left is the table of the
interpreter, made by a scan of the whole source with a stack, and on the right the count of open
brackets from the `[` on. -/
theorem partnerOfOpen?_eq_nested (front back : List UInt8) :
    partnerOfOpen? (front ++ '['.toUInt8 :: back) front.length
      = (nested '['.toUInt8 ']'.toUInt8 0 back).map
          fun passed => front.length + 1 + passed := by
  have hstack : opened (front ++ ['['.toUInt8]) = [] ++ front.length :: opened front := by
    rw [opened_concat, if_pos rfl, List.nil_append]
  have hlength : (front ++ ['['.toUInt8]).length = front.length + 1 := by simp
  have hwalk := firstClosing_nested (front ++ ['['.toUInt8]) back [] (opened front) front.length
    hstack (by omega) List.not_mem_nil
  rw [hlength, List.append_assoc, List.singleton_append, List.length_nil] at hwalk
  exact find?_closes hwalk fun i hi => closes_of_le (Nat.le_of_lt_succ hi)

end TapeBench.Meaning
