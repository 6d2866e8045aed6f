import TapeBench.Proofs.Meaning.Refinement

/-!
# `TapeBench.Proofs.Meaning.Comments`: programs with and without their comments

A byte that is neither an instruction nor zero is a comment. Without its comments a program is
shorter, so every byte behind the first comment stands at another address, and a walk to a bracket
goes over fewer bytes. Two processors run both programs side by side: `Twins` says that both are
about to fetch, that what stands in front of the one position is what stands in front of the other
one without the comments, and that their stores agree in everything but the number of program reads.

* `uncommented`, `sourceOf_uncommented`: a program without its comments.
* `exists_of_nested`, `nested_filter`: a walk finds the same bracket without the comments.
* `Twins.paired`: both processors come to the next twins, or to the same end.
* `Twins.paired_run`: so they do for as many turns as one likes.

The program without comments is never the slower one.
-/

set_option autoImplicit false

namespace TapeBench.Meaning

open Addressed (Latched Leads Along cpu)
open Bus (Op)

/-! ### Programs -/

/-- The byte spells an instruction. -/
def isCode (byte : UInt8) : Bool :=
  (Instruction.ofByte? byte).isSome

/-- A program without its comments: every byte is left out that is neither an instruction nor
zero. -/
def uncommented (program : Bytes) : Bytes :=
  program.filter fun byte => byte = 0 || isCode byte

/-- The byte of an instruction is none of a comment. -/
@[simp] theorem isCode_byte (instruction : Instruction) : isCode instruction.byte = true := by
  rw [isCode, Instruction.ofByte?_byte]
  rfl

/-- An instruction stays where the comments are left out. -/
theorem filter_instruction (front back : List UInt8) (instruction : Instruction) :
    (front ++ instruction.byte :: back).filter isCode
      = front.filter isCode ++ instruction.byte :: back.filter isCode := by
  rw [List.filter_append, List.filter_cons_of_pos (isCode_byte instruction)]

/-- A byte that spells an instruction is the byte of that instruction. -/
theorem byte_of_ofByte? {byte : UInt8} {instruction : Instruction}
    (h : Instruction.ofByte? byte = some instruction) : byte = instruction.byte := by
  unfold Instruction.ofByte? at h
  split at h <;> cases h <;> rfl

/-- The source of a program without comments is the source of the program, without comments. A zero
byte is not taken for a comment, so both sources end at the same one. -/
theorem sourceOf_uncommented (program : Bytes) :
    sourceOf (uncommented program) = (sourceOf program).filter isCode := by
  rw [sourceOf, uncommented, Array.toList_filter, sourceOf]
  induction program.toList with
  | nil => rfl
  | cons byte rest ih =>
      by_cases hzero : byte = 0
      · -- The zero stays, and it ends both sources.
        simp [hzero]
      · cases hcode : isCode byte with
        | true => simpa [hzero, hcode] using ih
        | false => simpa [hzero, hcode] using ih

/-- Without comments a program is not longer. -/
theorem size_uncommented_le (program : Bytes) : (uncommented program).size ≤ program.size :=
  Array.size_filter_le

/-! ### Walks -/

section Walks

variable {opener closer : UInt8}

/-- A walk stops in front of a closing bracket. The bytes are cut there, which is where both cores
land on their copies of them. -/
theorem exists_of_nested {bytes : List UInt8} {inner passed : Nat}
    (h : nested opener closer inner bytes = some passed) :
    ∃ walked rest, bytes = walked ++ closer :: rest ∧ walked.length = passed := by
  induction bytes generalizing inner passed with
  | nil => cases h
  | cons byte rest ih =>
      -- However the walk goes on behind the first byte, that byte belongs to what it goes over.
      have hlater : ∀ {inner' : Nat}, (nested opener closer inner' rest).map (· + 1) = some passed →
          ∃ walked behind, byte :: rest = walked ++ closer :: behind ∧ walked.length = passed := by
        intro inner' hmap
        obtain ⟨passed', hpassed, rfl⟩ := Option.map_eq_some_iff.mp hmap
        obtain ⟨walked, behind, rfl, rfl⟩ := ih hpassed
        exact ⟨byte :: walked, behind, rfl, rfl⟩
      rw [nested_cons] at h
      split at h
      · exact hlater h
      · split at h
        · cases inner with
          | zero => cases h; exact ⟨[], rest, by simp_all, rfl⟩
          | succ inner => exact hlater h
        · exact hlater h

/-- A walk over what is kept of some bytes finds the same bracket as the walk over all of them, if
both brackets are kept. -/
theorem nested_filter {keep : UInt8 → Bool} (hopener : keep opener = true)
    (hcloser : keep closer = true) (bytes : List UInt8) (inner : Nat) :
    nested opener closer inner (bytes.filter keep)
      = (nested opener closer inner bytes).map
          fun passed => ((bytes.take passed).filter keep).length := by
  induction bytes generalizing inner with
  | nil => rfl
  | cons byte rest ih =>
      -- A byte that is kept is one byte to pass on both walks.
      have hkept : keep byte = true → ∀ found : Option Nat,
          (found.map fun passed => ((rest.take passed).filter keep).length).map (· + 1)
            = (found.map (· + 1)).map
                fun passed => (((byte :: rest).take passed).filter keep).length := by
        intro hkeep found
        cases found <;> simp [hkeep]
      rw [nested_cons]
      by_cases hopen : byte = opener
      · rw [if_pos hopen, List.filter_cons_of_pos (hopen ▸ hopener), nested_cons, if_pos hopen, ih,
          hkept (hopen ▸ hopener)]
      · rw [if_neg hopen]
        by_cases hclose : byte = closer
        · rw [if_pos hclose, List.filter_cons_of_pos (hclose ▸ hcloser), nested_cons, if_neg hopen,
            if_pos hclose]
          cases inner with
          | zero => rfl
          | succ inner =>
              dsimp only
              rw [ih, hkept (hclose ▸ hcloser)]
        · rw [if_neg hclose]
          cases hkeep : keep byte with
          | true =>
              rw [List.filter_cons_of_pos hkeep, nested_cons, if_neg hopen, if_neg hclose, ih,
                hkept hkeep]
          | false =>
              rw [List.filter_cons_of_neg (by simp [hkeep]), ih]
              cases nested opener closer inner rest <;> simp [hkeep]

end Walks

/-! ### Two processors -/

/-- Stores that agree in everything but their programs and the number of program reads. -/
structure Alike (first second : Peripheral) : Prop where
  data : second.data = first.data
  channel : second.channel = first.channel
  tally : ∀ op ≠ Op.readProgram, second.tally.get op = first.tally.get op

namespace Alike

variable {first second : Peripheral}

/-- Both stores may count the same operation. -/
theorem counted (h : Alike first second) (op : Op) :
    Alike (first.counted op) (second.counted op) := by
  refine ⟨h.data, h.channel, fun other hother => ?_⟩
  simp only [Peripheral.counted, Tally.get_record, h.tally other hother]

/-- Program reads make no difference. -/
theorem walked (h : Alike first second) (reads others : Nat) :
    Alike (first.walked reads) (second.walked others) := by
  refine ⟨h.data, h.channel, fun op hop => ?_⟩
  have htally := h.tally op hop
  cases op <;> first | exact absurd rfl hop | exact htally

/-- Both may be written to in the same cell. -/
theorem put (h : Alike first second) (addr : UInt16) (value : UInt8) :
    Alike { first with data := first.data.write addr value }
      { second with data := second.data.write addr value } :=
  ⟨by simp only [h.data], h.channel, h.tally⟩

/-- Both may emit the same byte. -/
theorem emit (h : Alike first second) (value : UInt8) :
    Alike { first with channel := first.channel.write value }
      { second with channel := second.channel.write value } :=
  ⟨h.data, by simp only [h.channel], h.tally⟩

/-- Both may go on with the same streams, as they do behind a read. -/
theorem stream (h : Alike first second) (channel : Channel) :
    Alike { first with channel } { second with channel } :=
  ⟨h.data, rfl, h.tally⟩

end Alike

/-- Two processors in front of the same byte. `front` stands before it in the source of the first
one and `back` is that byte with what follows; the source of the second one lacks the comments:

- `core`, `other`: both fetch, and point at the same cell;
- `loaded`, `stripped`: both sources are loaded;
- `alike`: their stores agree. -/
structure Twins (front back : List UInt8) (ptr : UInt16) (first second : Latched Core) :
    Prop where
  core : first.core = ⟨.ofNat front.length, ptr, .fetch⟩
  other : second.core = ⟨.ofNat (front.filter isCode).length, ptr, .fetch⟩
  loaded : Loaded (front ++ back) first.bus.program
  stripped : Loaded ((front ++ back).filter isCode) second.bus.program
  alike : Alike first.bus second.bus

/-- Both processors come to the same end, and the second one not later than the first one:

- `halted`: both halt, with stores that agree;
- `starved`: both are about to fault on a read past the end of the input. -/
inductive SameEnd (first second : Latched Core) : Prop
  | halted {n m : Nat} {last other : Latched Core} (sooner : m ≤ n) (leads : Leads n first last)
      (follows : Leads m second other) (stopped : last.core.halted = true)
      (stops : other.core.halted = true) (alike : Alike last.bus other.bus)
  | starved {n m consumed : Nat} {last other stuck rest : Latched Core} {notes more : List Note}
      (sooner : m ≤ n) (leads : Leads n first last) (follows : Leads m second other)
      (running : last.core.halted = false) (runs : other.core.halted = false)
      (faults : cpu.turn last = ⟨.error (.inputExhausted consumed), stuck, notes⟩)
      (fails : cpu.turn other = ⟨.error (.inputExhausted consumed), rest, more⟩)

/-- Both processors come to the same end, or they are twins again behind some turns, of which the
second one takes `least` at least and not more than the first one. -/
def Paired (least : Nat) (first second : Latched Core) : Prop :=
  SameEnd first second
    ∨ ∃ n m last other front back ptr, least ≤ m ∧ m ≤ n ∧ Leads n first last
      ∧ Leads m second other ∧ Twins front back ptr last other

variable {first second : Latched Core} {front back : List UInt8} {ptr : UInt16}

/-- What both processors come to may be put behind turns that lead there. The second processor takes
`m` turns more then, which is what lets an induction on its turns go on. -/
theorem Paired.behind {n m least : Nat} {last other : Latched Core} (hsooner : m ≤ n)
    (hfirst : Leads n first last) (hsecond : Leads m second other)
    (h : Paired least last other) : Paired (m + least) first second := by
  rcases h with hend | ⟨n', m', last', other', front, back, ptr, hleast, hle, hfirst', hsecond', h⟩
  · refine .inl ?_
    cases hend with
    | halted sooner leads follows stopped stops alike =>
        exact .halted (Nat.add_le_add hsooner sooner) (hfirst.trans leads) (hsecond.trans follows)
          stopped stops alike
    | starved sooner leads follows running runs faults fails =>
        exact .starved (Nat.add_le_add hsooner sooner) (hfirst.trans leads)
          (hsecond.trans follows) running runs faults fails
  · exact .inr ⟨n + n', m + m', last', other', front, back, ptr, by omega, by omega,
      hfirst.trans hfirst', hsecond.trans hsecond', h⟩

/-- A lower bound on the turns may be lowered. -/
theorem Paired.mono {least least' : Nat} (h : Paired least first second) (hle : least' ≤ least) :
    Paired least' first second := by
  rcases h with hend | ⟨n, m, last, other, front, back, ptr, hleast, htwins⟩
  · exact .inl hend
  · exact .inr ⟨n, m, last, other, front, back, ptr, Nat.le_trans hle hleast, htwins⟩

/-! ### One instruction -/

/-- Both processors are about to fetch the same instruction. -/
theorem Twins.read {instruction : Instruction}
    (h : Twins front (instruction.byte :: back) ptr first second) :
    first.bus.program.read (.ofNat front.length) = instruction.byte
      ∧ second.bus.program.read (.ofNat (front.filter isCode).length) = instruction.byte := by
  refine ⟨h.loaded.read_source _ _ (by simp), h.stripped.read_source _ _ ?_⟩
  rw [filter_instruction, List.getElem?_append_right (Nat.le_refl _), Nat.sub_self]
  rfl

/-- Behind an instruction that does not jump, both processors are twins again. The instruction moves
from `back` to `front`, in the source and, as it is no comment, in the stripped source. -/
theorem Twins.next {instruction : Instruction}
    (h : Twins front (instruction.byte :: back) ptr first second) {n : Nat} (hn : 1 ≤ n)
    {last other : Latched Core} (hfirst : Leads n first last) (hsecond : Leads n second other)
    {ptr' : UInt16} (hcore : last.core = ⟨.ofNat front.length + 1, ptr', .fetch⟩)
    (hother : other.core = ⟨.ofNat (front.filter isCode).length + 1, ptr', .fetch⟩)
    (hprogram : last.bus.program = first.bus.program)
    (hstripped : other.bus.program = second.bus.program) (halike : Alike last.bus other.bus) :
    Paired 1 first second := by
  refine .inr ⟨n, n, last, other, front ++ [instruction.byte], back, ptr', hn, Nat.le_refl n,
    hfirst, hsecond, ?_, ?_, ?_, ?_, halike⟩
  · rw [hcore, List.length_append, List.length_singleton, UInt16.ofNat_add]
    rfl
  · rw [hother, filter_instruction, List.filter_nil, List.length_append, List.length_singleton,
      UInt16.ofNat_add]
    rfl
  · rw [hprogram, List.append_assoc, List.singleton_append]
    exact h.loaded
  · rw [hstripped, List.append_assoc, List.singleton_append]
    exact h.stripped

/-- Both processors fetch and decode the instruction, in two turns. They stand at different
addresses, and find the same byte there. -/
theorem Twins.decoded {instruction : Instruction}
    (h : Twins front (instruction.byte :: back) ptr first second) :
    Leads 2 first
        ⟨Core.decode ⟨.ofNat front.length, ptr, .decode⟩ instruction.byte, instruction.byte,
          first.bus.counted .readProgram, first.cycles + 2⟩
      ∧ Leads 2 second
        ⟨Core.decode ⟨.ofNat (front.filter isCode).length, ptr, .decode⟩ instruction.byte,
          instruction.byte, second.bus.counted .readProgram, second.cycles + 2⟩ := by
  obtain ⟨hread, hstripped⟩ := h.read
  obtain ⟨core, valIn, bus, cycles⟩ := first
  obtain ⟨other, value, stores, count⟩ := second
  obtain rfl : core = ⟨.ofNat front.length, ptr, .fetch⟩ := h.core
  obtain rfl : other = ⟨.ofNat (front.filter isCode).length, ptr, .fetch⟩ := h.other
  refine ⟨?_, ?_⟩
  · rw [← hread]
    exact Addressed.leads_instruction _ _ _ _ _
  · rw [← hstripped]
    exact Addressed.leads_instruction _ _ _ _ _

/-- Both processors load the same cell for the instruction, and use it, in four turns from the fetch
on. The cell is the same one because the twins share their pointer and their data. -/
theorem Twins.used {instruction : Instruction}
    (h : Twins front (instruction.byte :: back) ptr first second) (wanted : CellUse)
    (hdecode : ∀ pc, Core.decode ⟨pc, ptr, .decode⟩ instruction.byte
      = ⟨pc, ptr, .loadCell wanted⟩) :
    Leads 4 first
        ⟨Core.apply ⟨.ofNat front.length, ptr, .apply wanted⟩ wanted (first.bus.data.read ptr),
          first.bus.data.read ptr, (first.bus.counted .readProgram).counted .readData,
          first.cycles + 4⟩
      ∧ Leads 4 second
        ⟨Core.apply ⟨.ofNat (front.filter isCode).length, ptr, .apply wanted⟩ wanted
            (first.bus.data.read ptr),
          first.bus.data.read ptr, (second.bus.counted .readProgram).counted .readData,
          second.cycles + 4⟩ := by
  obtain ⟨hfirst, hsecond⟩ := h.decoded
  rw [hdecode] at hfirst hsecond
  refine ⟨hfirst.trans (Addressed.leads_cell _ _ _ _ _ wanted), ?_⟩
  rw [← h.alike.data]
  exact hsecond.trans (Addressed.leads_cell _ _ _ _ _ wanted)

/-- Both processors compute a value from the current cell and store it. Increment and decrement are
the two cases, each with its own `result`. -/
theorem Twins.put {instruction : Instruction}
    (h : Twins front (instruction.byte :: back) ptr first second) (wanted : CellUse)
    (result : UInt8 → UInt8)
    (hdecode : ∀ pc, Core.decode ⟨pc, ptr, .decode⟩ instruction.byte = ⟨pc, ptr, .loadCell wanted⟩)
    (happly : ∀ pc cell, Core.apply ⟨pc, ptr, .apply wanted⟩ wanted cell
      = ⟨pc, ptr, .store (result cell)⟩) : Paired 1 first second := by
  obtain ⟨hfirst, hsecond⟩ := h.used wanted hdecode
  rw [happly] at hfirst hsecond
  exact h.next (by decide) (hfirst.trans (Addressed.leads_store _ _ _ _ _ _))
    (hsecond.trans (Addressed.leads_store _ _ _ _ _ _)) rfl rfl rfl rfl
    ((((h.alike.counted _).counted _).put ptr _).counted _)

/-- Both processors write the current cell to the output. -/
theorem Twins.emit (h : Twins front (Instruction.emit.byte :: back) ptr first second) :
    Paired 1 first second := by
  obtain ⟨hfirst, hsecond⟩ := h.used .emit fun _ => rfl
  exact h.next (by decide) (hfirst.trans (Addressed.leads_emit _ _ _ _ _ _))
    (hsecond.trans (Addressed.leads_emit _ _ _ _ _ _)) rfl rfl rfl rfl
    ((((h.alike.counted _).counted _).emit _).counted _)

/-- Both processors read the same byte of the input, or fault on it alike, with the same number of
consumed bytes in the fault. -/
theorem Twins.accept (h : Twins front (Instruction.accept.byte :: back) ptr first second) :
    Paired 1 first second := by
  obtain ⟨hfirst, hsecond⟩ := h.decoded
  -- The twins share their input: either both are given the same byte, or both starve.
  rcases first.bus.channel.read_cases with ⟨value, channel, lines, hread⟩ | ⟨-, hread⟩
  · have hother := hread
    rw [← h.alike.channel] at hother
    exact h.next (by decide)
      ((hfirst.trans (Addressed.leads_accept _ _ _ _ _ hread)).trans
        (Addressed.leads_store _ _ _ _ _ value))
      ((hsecond.trans (Addressed.leads_accept _ _ _ _ _ hother)).trans
        (Addressed.leads_store _ _ _ _ _ value)) rfl rfl rfl rfl
      (((((h.alike.counted _).stream channel).counted _).put ptr value).counted _)
  · have hother := hread
    rw [← h.alike.channel] at hother
    obtain ⟨stuck, notes, hstuck⟩ := Addressed.turn_starved (.ofNat front.length) ptr
      Instruction.accept.byte (first.bus.counted .readProgram) (first.cycles + 2) hread
    obtain ⟨rest, more, hrest⟩ := Addressed.turn_starved (.ofNat (front.filter isCode).length) ptr
      Instruction.accept.byte (second.bus.counted .readProgram) (second.cycles + 2) hother
    rw [h.alike.channel] at hrest
    exact .inl (.starved (Nat.le_refl 2) hfirst hsecond rfl rfl hstuck hrest)

/-! ### Jumps -/

section Jumps

variable {direction : Direction} {bytes : List UInt8}

/-- Both processors walk to a bracket, one of them over `bytes` and the other one over what is left
of them without the comments. Both come out behind the same bracket, or at the zero behind all the
bytes. -/
theorem paired_of_walk {pc pc' : UInt16} (h : Alike first.bus second.bus)
    (hcore : first.core = ⟨pc, ptr, .scan direction 1⟩)
    (hother : second.core = ⟨pc', ptr, .scan direction 1⟩) (hlength : bytes.length ≤ 65534)
    (halong : Along direction first.bus.program pc bytes)
    (hstripped : Along direction second.bus.program pc' (bytes.filter isCode))
    (hzero : first.bus.program.read (direction.advance^[bytes.length] pc) = 0)
    (hend : second.bus.program.read
      (direction.advance^[(bytes.filter isCode).length] pc') = 0)
    (hlands : ∀ walked rest, bytes = walked ++ direction.closer.byte :: rest →
      ∃ front back, Loaded (front ++ back) first.bus.program
        ∧ Loaded ((front ++ back).filter isCode) second.bus.program
        ∧ direction.advance^[walked.length] pc + 1 = .ofNat front.length
        ∧ direction.advance^[(walked.filter isCode).length] pc' + 1
          = .ofNat (front.filter isCode).length) :
    Paired 1 first second := by
  obtain ⟨core, valIn, bus, cycles⟩ := first
  obtain ⟨other, value, stores, count⟩ := second
  obtain rfl : core = ⟨pc, ptr, .scan direction 1⟩ := hcore
  obtain rfl : other = ⟨pc', ptr, .scan direction 1⟩ := hother
  have hshorter : (bytes.filter isCode).length ≤ bytes.length := List.length_filter_le _ _
  obtain ⟨depth, last, hwalk⟩ := Addressed.leads_walk direction ptr
    (show 0 + 1 + bytes.length ≤ 65535 by omega) halong valIn cycles
  obtain ⟨depth', last', hwalk'⟩ := Addressed.leads_walk direction ptr
    (show 0 + 1 + (bytes.filter isCode).length ≤ 65535 by omega) hstripped value count
  -- Comments are no brackets, so the nesting counts the same in the text and in the stripped text.
  have hfilter := nested_filter (isCode_byte direction.opener) (isCode_byte direction.closer)
    bytes 0
  cases hnested : nested direction.opener.byte direction.closer.byte 0 bytes with
  | some passed =>
      -- The partner is there. Both cores land behind it, the stripped one after fewer edges.
      obtain ⟨walked, rest, rfl, rfl⟩ := exists_of_nested hnested
      obtain ⟨front, back, hloaded, hothers, hpc, hpc'⟩ := hlands walked rest rfl
      rw [hnested, Option.map_some, List.take_left] at hfilter
      rw [hnested] at hwalk
      rw [hfilter] at hwalk'
      have hfewer : (walked.filter isCode).length ≤ walked.length := List.length_filter_le _ _
      refine .inr ⟨_, _, _, _, front, back, ptr, ?_, ?_, hwalk, hwalk', ?_, ?_, hloaded, hothers,
        h.walked _ _⟩
      · show 1 ≤ 2 * ((walked.filter isCode).length + 1)
        omega
      · show 2 * ((walked.filter isCode).length + 1) ≤ 2 * (walked.length + 1)
        omega
      · rw [← hpc]
        rfl
      · rw [← hpc']
        rfl
  | none =>
      -- Without a partner both walks run into the zero that ends their program, and the cores halt.
      rw [hnested, Option.map_none] at hfilter
      rw [hnested] at hwalk
      rw [hfilter] at hwalk'
      have hlast := Addressed.leads_scan (direction.advance^[bytes.length] pc) ptr last
        (bus.walked bytes.length) (cycles + 2 * bytes.length) direction depth
      have hlast' := Addressed.leads_scan (direction.advance^[(bytes.filter isCode).length] pc') ptr
        last' (stores.walked (bytes.filter isCode).length)
        (count + 2 * (bytes.filter isCode).length) direction depth'
      rw [show (bus.walked bytes.length).program.read _ = 0 from hzero] at hlast
      rw [show (stores.walked _).program.read _ = 0 from hend] at hlast'
      refine .inl (.halted ?_ (hwalk.trans hlast) (hwalk'.trans hlast') rfl rfl
        ((h.walked _ _).counted _))
      show 2 * (bytes.filter isCode).length + 2 ≤ 2 * bytes.length + 2
      omega

/-- What a walk to the right from a bracket finds: the bytes behind it, and a zero. A source is
loaded in front of at least one zero byte, so that a walk without a partner ends. -/
theorem forward_of_loaded {program : Memory.Rom} {byte : UInt8} {front back : List UInt8}
    (h : Loaded (front ++ byte :: back) program) :
    Along .forward program (.ofNat front.length + 1) back
      ∧ program.read (Direction.forward.advance^[back.length] (.ofNat front.length + 1)) = 0 := by
  have hpos : UInt16.ofNat (front ++ [byte]).length = .ofNat front.length + 1 := by
    rw [List.length_append, List.length_singleton, UInt16.ofNat_add]
    rfl
  refine ⟨hpos ▸ along_forward h (front ++ [byte]) back (by simp), ?_⟩
  have hend := h.read_end
  rw [← List.singleton_append, ← List.append_assoc, List.length_append, UInt16.ofNat_add,
    hpos] at hend
  rw [forward_iterate]
  exact hend

/-- What a walk to the left from a bracket finds: the bytes in front of it, and a zero. -/
theorem backward_of_loaded {program : Memory.Rom} {byte : UInt8} {front back : List UInt8}
    (h : Loaded (front ++ byte :: back) program) :
    Along .backward program (.ofNat front.length - 1) front.reverse
      ∧ program.read (Direction.backward.advance^[front.reverse.length] (.ofNat front.length - 1))
        = 0 := by
  refine ⟨along_backward h front (byte :: back) rfl, ?_⟩
  rw [backward_iterate, List.length_reverse,
    show UInt16.ofNat front.length - 1 - .ofNat front.length = 65535 by grind]
  exact h.read_last

/-- Behind a walk to the right the program goes on behind everything that was passed. -/
theorem forward_landing (front walked : List UInt8) (opener closer : UInt8) :
    Direction.forward.advance^[walked.length] (.ofNat front.length + 1) + 1
      = .ofNat (front ++ opener :: (walked ++ [closer])).length := by
  rw [forward_iterate]
  simp only [List.length_append, List.length_cons, List.length_nil, UInt16.ofNat_add]
  grind

/-- Behind a walk to the left the program goes on behind the bracket that was found. -/
theorem backward_landing (rest walked : List UInt8) (opener : UInt8) :
    Direction.backward.advance^[walked.length]
        (.ofNat (rest ++ opener :: walked).length - 1) + 1
      = .ofNat (rest ++ [opener]).length := by
  rw [backward_iterate]
  simp only [List.length_append, List.length_cons, List.length_nil, UInt16.ofNat_add]
  grind

/-- On a zero cell both processors jump behind the partner of a `[`. What they jump over is moved to
`front` with both brackets. Without a partner both of them halt. -/
theorem Twins.jump_forward (h : Twins front (Instruction.loopOpen.byte :: back) ptr first second)
    (hcell : first.bus.data.read ptr = 0) : Paired 1 first second := by
  obtain ⟨hfirst, hsecond⟩ := h.used .loopOpen fun _ => rfl
  simp only [Core.apply, if_pos hcell] at hfirst hsecond
  have hloaded := h.loaded
  have hstripped := h.stripped
  obtain ⟨halong, hzero⟩ := forward_of_loaded hloaded
  rw [filter_instruction] at hstripped
  obtain ⟨halong', hzero'⟩ := forward_of_loaded hstripped
  have hle := hloaded.length_le
  rw [List.length_append, List.length_cons] at hle
  -- Four turns decode the bracket and read the cell. Then the walk begins, over `back` on one side
  -- and over its code on the other.
  refine (Paired.behind (Nat.le_refl 4) hfirst hsecond (paired_of_walk
    ((h.alike.counted _).counted _) rfl rfl (show back.length ≤ 65534 by omega) halong halong'
    hzero hzero' ?_)).mono (by decide)
  rintro walked rest rfl
  refine ⟨front ++ Instruction.loopOpen.byte :: (walked ++ [Instruction.loopClose.byte]), rest,
    ?_, ?_, forward_landing front walked _ _, ?_⟩
  · rw [List.append_assoc, List.cons_append, List.append_assoc, List.singleton_append]
    exact hloaded
  · rw [List.append_assoc, List.cons_append, List.append_assoc, List.singleton_append]
    exact h.stripped
  · rw [filter_instruction, filter_instruction, List.filter_nil]
    exact forward_landing _ _ _ _

/-- On a cell that is not zero both processors jump behind the partner of a `]`. The walk goes over
`front` from its end, so the text between the brackets is moved back from `front` to `back`. -/
theorem Twins.jump_backward
    (h : Twins front (Instruction.loopClose.byte :: back) ptr first second)
    (hcell : first.bus.data.read ptr ≠ 0) : Paired 1 first second := by
  obtain ⟨hfirst, hsecond⟩ := h.used .loopClose fun _ => rfl
  simp only [Core.apply, if_neg hcell] at hfirst hsecond
  have hloaded := h.loaded
  have hstripped := h.stripped
  obtain ⟨halong, hzero⟩ := backward_of_loaded hloaded
  rw [filter_instruction] at hstripped
  obtain ⟨halong', hzero'⟩ := backward_of_loaded hstripped
  rw [← List.filter_reverse] at halong' hzero'
  have hle := hloaded.length_le
  rw [List.length_append, List.length_cons] at hle
  refine (Paired.behind (Nat.le_refl 4) hfirst hsecond (paired_of_walk
    ((h.alike.counted _).counted _) rfl rfl
    (show front.reverse.length ≤ 65534 by rw [List.length_reverse]; omega) halong halong'
    hzero hzero' ?_)).mono (by decide)
  -- The walk meets the bytes in front of the bracket in reverse.
  intro walked rest hfront
  obtain rfl : front = rest.reverse ++ Instruction.loopOpen.byte :: walked.reverse := by
    rw [← List.reverse_reverse front, hfront]
    simp [Direction.closer]
  refine ⟨rest.reverse ++ [Instruction.loopOpen.byte],
    walked.reverse ++ Instruction.loopClose.byte :: back, ?_, ?_, ?_, ?_⟩
  · rw [List.append_assoc, List.singleton_append, ← List.cons_append, ← List.append_assoc]
    exact hloaded
  · rw [List.append_assoc, List.singleton_append, ← List.cons_append, ← List.append_assoc]
    exact h.stripped
  · have hlanding := backward_landing rest.reverse walked.reverse Instruction.loopOpen.byte
    rw [List.length_reverse] at hlanding
    exact hlanding
  · have hlanding := backward_landing (rest.reverse.filter isCode) (walked.reverse.filter isCode)
      Instruction.loopOpen.byte
    have hlength : (walked.reverse.filter isCode).length = (walked.filter isCode).length := by
      rw [List.filter_reverse, List.length_reverse]
    rw [filter_instruction, filter_instruction, List.filter_nil]
    rw [hlength] at hlanding
    exact hlanding

end Jumps

/-! ### Runs -/

/-- Both processors take the instruction that is up, in the same number of turns unless it jumps. Of
the instructions only the jumps look at the program around them, and only there comments cost the
first processor turns that the second one saves. -/
theorem Twins.paired_of_code {instruction : Instruction}
    (h : Twins front (instruction.byte :: back) ptr first second) : Paired 1 first second := by
  cases instruction with
  | right | left =>
      exact h.next (by decide) h.decoded.1 h.decoded.2 rfl rfl rfl rfl (h.alike.counted _)
  | increment => exact h.put .increment (· + 1) (fun _ => rfl) fun _ _ => rfl
  | decrement => exact h.put .decrement (· - 1) (fun _ => rfl) fun _ _ => rfl
  | emit => exact h.emit
  | accept => exact h.accept
  -- A bracket jumps or goes on, as its cell says. The twins have the same cell.
  | loopOpen =>
      by_cases hcell : first.bus.data.read ptr = 0
      · exact h.jump_forward hcell
      · obtain ⟨hfirst, hsecond⟩ := h.used .loopOpen fun _ => rfl
        simp only [Core.apply, if_neg hcell] at hfirst hsecond
        exact h.next (by decide) hfirst hsecond rfl rfl rfl rfl
          ((h.alike.counted _).counted _)
  | loopClose =>
      by_cases hcell : first.bus.data.read ptr = 0
      · obtain ⟨hfirst, hsecond⟩ := h.used .loopClose fun _ => rfl
        simp only [Core.apply, if_pos hcell] at hfirst hsecond
        exact h.next (by decide) hfirst hsecond rfl rfl rfl rfl
          ((h.alike.counted _).counted _)
      · exact h.jump_backward hcell

/-- Behind the source both processors halt, on the zero byte that each of them finds there. -/
theorem Twins.sameEnd (h : Twins front [] ptr first second) : SameEnd first second := by
  obtain ⟨core, valIn, bus, cycles⟩ := first
  obtain ⟨other, value, stores, count⟩ := second
  obtain ⟨rfl, rfl, hloaded, hstripped, halike⟩ := h
  rw [List.append_nil] at hloaded hstripped
  have hfirst := Addressed.leads_instruction (.ofNat front.length) ptr valIn bus cycles
  have hsecond := Addressed.leads_instruction (.ofNat (front.filter isCode).length) ptr value
    stores count
  rw [hloaded.read_end] at hfirst
  rw [hstripped.read_end] at hsecond
  exact .halted (Nat.le_refl 2) hfirst hsecond rfl rfl (halike.counted _)

/-- The first processor goes over comments, while the second one has none to go over. So it may fall
behind by any number of turns before the two of them take the next instruction. -/
theorem Twins.skip (h : Twins front back ptr first second) :
    ∃ n last front' back', Leads n first last ∧ Twins front' back' ptr last second
      ∧ (back' = [] ∨ ∃ (instruction : Instruction) (rest : List UInt8),
        back' = instruction.byte :: rest) := by
  -- Induction on what is ahead: a comment moves from `back` to the end of `front`.
  induction back generalizing front first with
  | nil => exact ⟨0, first, front, [], .refl first, h, .inl rfl⟩
  | cons byte rest ih =>
      cases hcode : Instruction.ofByte? byte with
      | some instruction =>
          obtain rfl := byte_of_ofByte? hcode
          exact ⟨0, first, front, _, .refl first, h, .inr ⟨instruction, rest, rfl⟩⟩
      | none =>
          have hdropped : (front ++ [byte]).filter isCode = front.filter isCode := by
            simp [isCode, hcode]
          have hsource : front ++ byte :: rest = front ++ [byte] ++ rest := by simp
          obtain ⟨core, valIn, bus, cycles⟩ := first
          obtain ⟨hcore, hother, hloaded, hstripped, halike⟩ := h
          obtain rfl : core = ⟨.ofNat front.length, ptr, .fetch⟩ := hcore
          have hread := hloaded.read_source front.length byte (by simp)
          have hfetch := Addressed.leads_instruction (.ofNat front.length) ptr valIn bus cycles
          rw [hread, Core.decode, hcode] at hfetch
          simp only [if_neg (hloaded.ne_zero byte (by simp))] at hfetch
          have hbehind : Twins (front ++ [byte]) rest ptr
              ⟨⟨.ofNat front.length + 1, ptr, .fetch⟩, byte, bus.counted .readProgram, cycles + 2⟩
              second := by
            refine ⟨?_, hdropped ▸ hother, hsource ▸ hloaded, hsource ▸ hstripped,
              halike.walked 1 0⟩
            rw [List.length_append, List.length_singleton, UInt16.ofNat_add]
            rfl
          obtain ⟨n, last, front', back', hleads, htwins, hback⟩ := ih hbehind
          exact ⟨2 + n, last, front', back', hfetch.trans hleads, htwins, hback⟩

/-- Twins come to the next twins, behind at least one turn of each, or to the same end. -/
theorem Twins.paired (h : Twins front back ptr first second) : Paired 1 first second := by
  obtain ⟨n, last, front', back', hskip, htwins, hback⟩ := h.skip
  have hpaired : Paired 1 last second := by
    rcases hback with rfl | ⟨instruction, rest, rfl⟩
    · exact .inl htwins.sameEnd
    · exact htwins.paired_of_code
  exact (Paired.behind (Nat.zero_le n) hskip (.refl second) hpaired).mono (by omega)

/-- Twins come to the same end, or go on as twins for as many turns as one likes. Where they do not
end, any budget is used up by both of them, which is all that a run without an end can show. -/
theorem Twins.paired_run (least : Nat) (h : Twins front back ptr first second) :
    Paired least first second := by
  -- Induction on the number of turns; each instruction takes one at least.
  induction least generalizing front back ptr first second with
  | zero =>
      exact .inr ⟨0, 0, first, second, front, back, ptr, Nat.le_refl 0, Nat.le_refl 0,
        .refl first, .refl second, h⟩
  | succ least ih =>
      rcases h.paired with hend | ⟨n, m, last, other, _, _, _, hm, hle, hfirst, hsecond, htwins⟩
      · exact .inl hend
      · exact (Paired.behind hle hfirst hsecond (ih htwins)).mono (by omega)

end TapeBench.Meaning
