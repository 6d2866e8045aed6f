import Mathlib.Computability.RegularExpressions
import TapeBench.Serial.Phase

/-!
# `TapeBench.Proofs.Serial.Grammar`: the phases of the link as a regular language

A device goes through passes: operation code, high address byte, low address byte, execution, each
seen at least once and as often as the host polls. Around the passes the link may be idle. The
words of this language are the complete sequences of phases; a host sees a prefix of one.

* `grammar`: the language, as a regular expression.
* `Legal`: each phase is held or enters the next one, by the table of `Phase.observe`.
* `prefix_mem_grammar_iff`: the two say the same.

The proof follows the residuals of the language: what is left to be seen depends on the phase that
was seen last (`residual`), and one more phase takes one residual to the next
(`cons_mem_residual_iff`).
-/

set_option autoImplicit false

namespace TapeBench.Serial

open Computability
open RegularExpression (char)

/-- A phase that is seen once or more often. -/
def seen (phase : Phase) : RegularExpression Phase :=
  char phase * (char phase).star

/-- The complete sequences of phases. -/
def grammar : RegularExpression Phase :=
  (char Phase.idle).star
    * (seen .opcode * seen .addressHigh * seen .addressLow * seen .execute
        * (char Phase.idle).star).star

/-- Each phase of a sequence is held from the one before it, or entered from there. -/
def Legal (last : Phase) : List Phase → Prop
  | [] => True
  | next :: rest => (last = next ∨ last.enters next = true) ∧ Legal next rest

/-- One more phase is legal behind a sequence if it is legal behind the last one. -/
theorem legal_append_singleton (last : Phase) (phases : List Phase) (next : Phase) :
    Legal last (phases ++ [next])
      ↔ Legal last phases ∧ (phases.getLastD last = next
        ∨ (phases.getLastD last).enters next = true) := by
  induction phases generalizing last with
  | nil => simp [Legal]
  | cons phase rest ih =>
      rw [List.cons_append, Legal, Legal, ih, List.getLastD_cons, and_assoc]

/-! ### Residuals -/

section Residuals

variable {α : Type}

/-- A word that begins with a given letter. -/
theorem cons_mem_letter_mul {a b : α} {word : List α} {l : Language α} :
    b :: word ∈ ({[a]} : Language α) * l ↔ b = a ∧ word ∈ l := by
  constructor
  · rintro ⟨front, hfront, back, hback, hword⟩
    obtain rfl : front = [a] := hfront
    obtain ⟨rfl, rfl⟩ := List.cons.inj hword
    exact ⟨rfl, hback⟩
  · rintro ⟨rfl, hword⟩
    exact ⟨[b], rfl, word, hword, rfl⟩

/-- The first letter of a word is one that repeats, or belongs to what follows. -/
theorem cons_mem_star_mul {a b : α} {word : List α} {l : Language α} :
    b :: word ∈ ({[a]} : Language α)∗ * l
      ↔ (b = a ∧ word ∈ ({[a]} : Language α)∗ * l) ∨ b :: word ∈ l := by
  -- The star is unfolded once on the left alone; on the right it stands for what is left.
  have hunfold : ({[a]} : Language α)∗ * l = l + {[a]} * ({[a]}∗ * l) := by
    rw [← mul_assoc, ← one_add_mul, Language.one_add_self_mul_kstar_eq_kstar]
  conv_lhs => rw [hunfold]
  rw [Language.mem_add, cons_mem_letter_mul, or_comm]

end Residuals

/-- Zero or more passes. -/
def passes : Language Phase :=
  (seen .opcode * seen .addressHigh * seen .addressLow * seen .execute
    * (char Phase.idle).star).star.matches'

/-- What may follow between two passes. -/
def between : Language Phase :=
  {[.idle]}∗ * passes

/-- What may follow behind the execution phase, the phase itself included. -/
def executing : Language Phase :=
  {[.execute]}∗ * between

/-- What may follow behind the low address byte. -/
def located : Language Phase :=
  {[.addressLow]}∗ * ({[.execute]} * executing)

/-- What may follow behind the high address byte. -/
def locating : Language Phase :=
  {[.addressHigh]}∗ * ({[.addressLow]} * located)

/-- What may follow behind the operation code. -/
def coded : Language Phase :=
  {[.opcode]}∗ * ({[.addressHigh]} * locating)

/-- Either no pass follows, or one whose operation code has been seen once. -/
theorem passes_eq : passes = 1 + {[.opcode]} * coded := by
  rw [passes, RegularExpression.matches'_star, ← Language.one_add_self_mul_kstar_eq_kstar,
    ← RegularExpression.matches'_star, ← passes]
  simp only [seen, RegularExpression.matches'_mul, RegularExpression.matches'_star,
    RegularExpression.matches'_char, coded, locating, located, executing, between, mul_assoc]

/-- What may follow behind each phase. -/
def residual : Phase → Language Phase
  | .idle => between
  | .opcode => coded
  | .addressHigh => locating
  | .addressLow => located
  | .execute => executing

/-- In front of the first phase everything may follow that the grammar allows, as a new host takes
the link to be idle. -/
theorem residual_idle : residual .idle = grammar.matches' := by
  rw [grammar, RegularExpression.matches'_mul]
  rfl

/-- What follows between passes begins with an idle link or with a pass. -/
theorem cons_mem_between {next : Phase} {word : List Phase} :
    next :: word ∈ between ↔ (next = .idle ∧ word ∈ between) ∨ (next = .opcode ∧ word ∈ coded) := by
  rw [between, cons_mem_star_mul, passes_eq, Language.mem_add, Language.mem_one,
    cons_mem_letter_mul]
  simp

/-- One more phase takes one residual to the next. The residuals are what the grammar leaves to be
read behind each phase, and the steps between them are those of the host. -/
theorem cons_mem_residual_iff (last next : Phase) (word : List Phase) :
    next :: word ∈ residual last
      ↔ (last = next ∨ last.enters next = true) ∧ word ∈ residual next := by
  -- Each residual is unfolded up to its first letter. What remains is one row of the table of
  -- transitions for each phase.
  cases last with
  | idle =>
      rw [residual, cons_mem_between]
      cases next <;> simp [residual, Phase.enters]
  | opcode =>
      rw [residual, coded, cons_mem_star_mul, cons_mem_letter_mul, ← coded]
      cases next <;> simp [residual, Phase.enters]
  | addressHigh =>
      rw [residual, locating, cons_mem_star_mul, cons_mem_letter_mul, ← locating]
      cases next <;> simp [residual, Phase.enters]
  | addressLow =>
      rw [residual, located, cons_mem_star_mul, cons_mem_letter_mul, ← located]
      cases next <;> simp [residual, Phase.enters]
  | execute =>
      rw [residual, executing, cons_mem_star_mul, cons_mem_between, ← executing]
      cases next <;> simp [residual, Phase.enters]

/-- A sequence of phases may end between two passes. -/
theorem nil_mem_between : [] ∈ between := by
  have hpasses : [] ∈ passes := by
    rw [passes_eq]
    exact .inl rfl
  exact ⟨[], Language.nil_mem_kstar _, [], hpasses, rfl⟩

/-- Every pass that was begun can be completed, so that to be accepted so far is to be the beginning
of a word of the grammar. -/
theorem exists_mem_residual (last : Phase) : ∃ word, word ∈ residual last := by
  -- From the execution phase a pass is complete; each other phase takes one letter more.
  have hexecute : [] ∈ residual .execute := ⟨[], Language.nil_mem_kstar _, [], nil_mem_between, rfl⟩
  have hlow : [.execute] ∈ residual .addressLow :=
    (cons_mem_residual_iff _ _ _).mpr ⟨.inr rfl, hexecute⟩
  have hhigh : [.addressLow, .execute] ∈ residual .addressHigh :=
    (cons_mem_residual_iff _ _ _).mpr ⟨.inr rfl, hlow⟩
  have hopcode : [.addressHigh, .addressLow, .execute] ∈ residual .opcode :=
    (cons_mem_residual_iff _ _ _).mpr ⟨.inr rfl, hhigh⟩
  cases last with
  | idle => exact ⟨[], nil_mem_between⟩
  | opcode => exact ⟨_, hopcode⟩
  | addressHigh => exact ⟨_, hhigh⟩
  | addressLow => exact ⟨_, hlow⟩
  | execute => exact ⟨_, hexecute⟩

/-- A sequence can be continued to a word of a residual exactly if it is legal. -/
theorem prefix_mem_residual_iff (last : Phase) (phases : List Phase) :
    (∃ rest, phases ++ rest ∈ residual last) ↔ Legal last phases := by
  -- Induction on the sequence: every residual has a word, and each phase leads to the next one.
  induction phases generalizing last with
  | nil => simpa [Legal] using exists_mem_residual last
  | cons next rest ih =>
      simp only [List.cons_append, cons_mem_residual_iff, Legal, ← ih, exists_and_left]

/-- A sequence of phases is a prefix of a word of the language exactly if each of its phases is
held or entered from the one before it, and the first from an idle link. -/
theorem prefix_mem_grammar_iff (phases : List Phase) :
    (∃ rest, phases ++ rest ∈ grammar.matches') ↔ Legal .idle phases := by
  rw [← residual_idle]
  exact prefix_mem_residual_iff .idle phases

end TapeBench.Serial
