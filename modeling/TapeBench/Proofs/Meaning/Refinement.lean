import TapeBench.Proofs.Meaning.Loaded

/-!
# `TapeBench.Proofs.Meaning.Refinement`: the processor computes the meaning of its program

`Mirrors` relates a point of an execution with the processor that is about to fetch the same byte:
the program memory holds the source, the data memory the cells, and the channel the streams. From
there the processor follows the execution byte by byte, and `Follows` says what that means for each
of the three things that an execution can come to.

* `follows_step`: one byte, by its instruction. A jump is a walk over the source in between.
* `follows_run`: any number of bytes.
* `verdict_cpu_meaning`: what a run over the addressed bus makes of the execution of its case.
-/

set_option autoImplicit false

namespace TapeBench.Meaning

open Addressed (Latched Leads cpu walkReads walkEnd)

/-- The streams and the data memory hold what a point of the execution says, under a policy for
exhausted input and with `total` input bytes in all:

- `cells`: the data memory holds the cells;
- `input`: the same input is left;
- `output`: the same output was written;
- `policy`: the policy is the one of the run;
- `consumed`: what was read and what is left are the whole input. -/
structure Agrees (policy : Exhaustion) (total : Nat) (state : State) (bus : Peripheral) :
    Prop where
  cells : ∀ addr, bus.data.read addr = state.cells addr
  input : bus.channel.input = state.input
  output : bus.channel.output = state.output
  policy : bus.channel.onExhausted = policy
  consumed : bus.channel.consumed + state.input.length = total

/-- The processor is about to fetch the byte that is up:

- `pos_le`: the position is in the source, or right behind it;
- `core`: the core fetches at the position and points at the current cell;
- `loaded`: the source is loaded;
- `agrees`: the stores hold what the execution says. -/
structure Mirrors (source : List UInt8) (policy : Exhaustion) (total : Nat) (state : State)
    (latched : Latched Core) : Prop where
  pos_le : state.pos ≤ source.length
  core : latched.core = ⟨.ofNat state.pos, state.ptr, .fetch⟩
  loaded : Loaded source latched.bus.program
  agrees : Agrees policy total state latched.bus

/-- The largest number of cycles that one byte can take: a walk over the whole source, the byte
before it, and the zero byte behind it. -/
def pace : Nat := 131074

/-- The processor follows an execution: with at least `least` and at most `most` turns it mirrors
the state that the execution has come to, or it halts with the same output, or it is about to fault
on a read past the end of the input. -/
def Follows (source : List UInt8) (policy : Exhaustion) (total least most : Nat)
    (latched : Latched Core) : Progress → Prop
  | .running state =>
    ∃ n last, least ≤ n ∧ n ≤ most ∧ Leads n latched last
      ∧ Mirrors source policy total state last
  | .halted output =>
    ∃ n last, n ≤ most ∧ Leads n latched last ∧ last.core.halted = true
      ∧ last.bus.channel.output = output
  | .starved =>
    ∃ n last stuck notes, n ≤ most ∧ Leads n latched last ∧ last.core.halted = false
      ∧ cpu.turn last = ⟨.error (.inputExhausted total), stuck, notes⟩

variable {source : List UInt8} {policy : Exhaustion} {total : Nat} {state : State}
  {latched : Latched Core}

/-! ### Stores -/

namespace Agrees

variable {bus : Peripheral}

/-- An execution has no counts, so stores may count what they like. -/
theorem counted (h : Agrees policy total state bus) (op : Bus.Op) :
    Agrees policy total state (bus.counted op) :=
  ⟨h.cells, h.input, h.output, h.policy, h.consumed⟩

/-- Nor does it know of the program reads of a walk. -/
theorem walked (h : Agrees policy total state bus) (reads : Nat) :
    Agrees policy total state (bus.walked reads) :=
  ⟨h.cells, h.input, h.output, h.policy, h.consumed⟩

/-- Stores have neither a position nor a pointer, so an execution may move both. -/
theorem goTo (h : Agrees policy total state bus) (pos : Nat) (ptr : UInt16) :
    Agrees policy total { state with pos, ptr } bus :=
  ⟨h.cells, h.input, h.output, h.policy, h.consumed⟩

/-- A write to the current cell. -/
theorem put (h : Agrees policy total state bus) (value : UInt8) :
    Agrees policy total (state.put value) { bus with data := bus.data.write state.ptr value } := by
  refine ⟨?_, h.input, h.output, h.policy, h.consumed⟩
  intro addr
  rw [Memory.Ram.read_write, h.cells]
  rfl

/-- A byte of output. -/
theorem emit (h : Agrees policy total state bus) (value : UInt8) :
    Agrees policy total { state with output := state.output.push value }
      { bus with channel := bus.channel.write value } := by
  refine ⟨h.cells, h.input, ?_, h.policy, h.consumed⟩
  show bus.channel.output.push value = state.output.push value
  rw [h.output]

end Agrees

/-! ### One byte -/

/-- The byte that is up is fetched and decoded. -/
theorem Mirrors.fetch (h : Mirrors source policy total state latched) {byte : UInt8}
    (hbyte : latched.bus.program.read (.ofNat state.pos) = byte) :
    Leads 2 latched
      ⟨Core.decode ⟨.ofNat state.pos, state.ptr, .decode⟩ byte, byte,
        latched.bus.counted .readProgram, latched.cycles + 2⟩ := by
  obtain ⟨core, valIn, bus, cycles⟩ := latched
  obtain rfl : core = ⟨.ofNat state.pos, state.ptr, .fetch⟩ := h.core
  rw [← hbyte]
  exact Addressed.leads_instruction _ _ _ _ _

/-- The byte that is up asks for the current cell, which is loaded and used. These are four turns:
fetch, decode, the read of the cell and its use. What the use leads to depends on the byte. -/
theorem Mirrors.load (h : Mirrors source policy total state latched) {byte : UInt8}
    (hbyte : latched.bus.program.read (.ofNat state.pos) = byte) (wanted : CellUse)
    (hdecode : ∀ pc ptr, Core.decode ⟨pc, ptr, .decode⟩ byte = ⟨pc, ptr, .loadCell wanted⟩) :
    Leads 4 latched
      ⟨Core.apply ⟨.ofNat state.pos, state.ptr, .apply wanted⟩ wanted state.cell, state.cell,
        (latched.bus.counted .readProgram).counted .readData, latched.cycles + 4⟩ := by
  have hfetch := h.fetch hbyte
  rw [hdecode] at hfetch
  have hcell := Addressed.leads_cell (.ofNat state.pos) state.ptr byte
    (latched.bus.counted .readProgram) (latched.cycles + 2) wanted
  rw [show (latched.bus.counted .readProgram).data.read state.ptr = state.cell
    from h.agrees.cells state.ptr] at hcell
  exact hfetch.trans hcell

/-- The processor goes on with the next byte. -/
theorem follows_next {n : Nat} {last : Latched Core} (hlead : Leads n latched last)
    (hn : 1 ≤ n) (hpace : n ≤ pace) (hpos : state.pos < source.length)
    (hcore : last.core = ⟨.ofNat state.pos + 1, state.ptr, .fetch⟩)
    (hloaded : Loaded source last.bus.program) (hagrees : Agrees policy total state last.bus) :
    Follows source policy total 1 pace latched state.next := by
  refine ⟨n, last, hn, hpace, hlead, hpos, ?_, hloaded, hagrees.goTo _ _⟩
  rw [hcore]
  simp only [UInt16.ofNat_add]
  rfl

/-- The current cell gets a value that was computed from it. Increment and decrement are the two
cases; the interpreter puts the value at once, and the core in a turn of its own. -/
theorem follows_put (h : Mirrors source policy total state latched)
    (hpos : state.pos < source.length) {byte value : UInt8}
    (hbyte : latched.bus.program.read (.ofNat state.pos) = byte) (wanted : CellUse)
    (hdecode : ∀ pc ptr, Core.decode ⟨pc, ptr, .decode⟩ byte = ⟨pc, ptr, .loadCell wanted⟩)
    (happly : ∀ pc ptr, Core.apply ⟨pc, ptr, .apply wanted⟩ wanted state.cell
      = ⟨pc, ptr, .store value⟩) :
    Follows source policy total 1 pace latched (state.put value).next := by
  have hload := h.load hbyte wanted hdecode
  rw [happly] at hload
  have hstore := hload.trans (Addressed.leads_store _ _ _ _ _ value)
  exact follows_next hstore (by decide) (by decide) hpos rfl h.loaded
    ((((h.agrees.counted _).counted _).put value).counted _)

/-- The current cell is written to the output. -/
theorem follows_emit (h : Mirrors source policy total state latched)
    (hpos : state.pos < source.length)
    (hbyte : latched.bus.program.read (.ofNat state.pos) = '.'.toUInt8) :
    Follows source policy total 1 pace latched
      { state with output := state.output.push state.cell }.next := by
  have hload := h.load hbyte .emit fun _ _ => rfl
  have hemit := hload.trans (Addressed.leads_emit _ _ _ _ _ state.cell)
  exact follows_next hemit (by decide) (by decide) hpos rfl h.loaded
    ((((h.agrees.counted _).counted _).emit state.cell).counted _)

/-- An input byte is read into the current cell, or the read faults. The two agree on which it is,
because the policy of the interpreter is that of the channel and both have the same input left. -/
theorem follows_accept (h : Mirrors source policy total state latched)
    (hpos : state.pos < source.length)
    (hbyte : latched.bus.program.read (.ofNat state.pos) = ','.toUInt8) :
    Follows source policy total 1 pace latched (state.accept policy) := by
  have hfetch := h.fetch hbyte
  -- Every read that gives a value ends in the same way.
  have hgives : ∀ {value : UInt8} {channel : Channel} {notes : List Note} {next : State},
      latched.bus.channel.read = ⟨.ok value, channel, notes⟩ → next.pos = state.pos →
      next.ptr = state.ptr → Agrees policy total next { latched.bus with channel } →
      Follows source policy total 1 pace latched (next.put value).next := by
    intro value channel notes next hread hnext hptr hagrees
    have hstore := (hfetch.trans (Addressed.leads_accept _ _ _ _ _ hread)).trans
      (Addressed.leads_store _ _ _ _ _ value)
    have hput := (((hagrees.counted .readProgram).counted .readIo).put value).counted .writeData
    rw [hptr] at hput
    exact follows_next hstore (by decide) (by decide) (hnext ▸ hpos)
      (by rw [State.put, hnext, hptr]) h.loaded hput
  obtain ⟨hcells, hinput, houtput, hpolicy, hconsumed⟩ := h.agrees
  obtain ⟨core, valIn, ⟨program, data, ⟨input, consumed, output, onExhausted⟩, tally⟩, cycles⟩ :=
    latched
  obtain ⟨pos, ptr, cells, stateInput, stateOutput⟩ := state
  obtain rfl : input = stateInput := hinput
  obtain rfl : onExhausted = policy := hpolicy
  cases input with
  | cons byte rest =>
      refine hgives rfl rfl rfl ⟨hcells, rfl, houtput, rfl, ?_⟩
      have hcount : consumed + (rest.length + 1) = total := hconsumed
      show consumed + 1 + rest.length = total
      omega
  | nil =>
      cases onExhausted with
      | returnByte byte => exact hgives rfl rfl rfl ⟨hcells, rfl, houtput, rfl, hconsumed⟩
      | fail =>
          have hstarved := Addressed.turn_starved (.ofNat pos) ptr ','.toUInt8
            (Peripheral.counted ⟨program, data, ⟨[], consumed, output, .fail⟩, tally⟩ .readProgram)
            (cycles + 2) rfl
          obtain rfl : consumed = total := hconsumed
          obtain ⟨stuck, more, hfault⟩ := hstarved
          exact ⟨2, _, stuck, more, by decide, hfetch, rfl, hfault⟩

/-! ### Jumps -/

/-- Where a walk to the right has come to. -/
theorem forward_iterate (pc : UInt16) (count : Nat) :
    Direction.forward.advance^[count] pc = pc + .ofNat count := by
  induction count generalizing pc with
  | zero => simp
  | succ count ih =>
      rw [Function.iterate_succ_apply, ih]
      simp only [Direction.advance, UInt16.ofNat_add]
      grind

/-- Where a walk to the left has come to. -/
theorem backward_iterate (pc : UInt16) (count : Nat) :
    Direction.backward.advance^[count] pc = pc - .ofNat count := by
  induction count generalizing pc with
  | zero => simp
  | succ count ih =>
      rw [Function.iterate_succ_apply, ih]
      simp only [Direction.advance, UInt16.ofNat_add]
      grind

/-- A position in the source splits it into what stands before it, the byte there, and what stands
behind it. -/
theorem exists_split {pos : Nat} {byte : UInt8} (h : source[pos]? = some byte) :
    ∃ front back, source = front ++ byte :: back ∧ front.length = pos := by
  obtain ⟨hlt, hget⟩ := List.getElem?_eq_some_iff.mp h
  refine ⟨source.take pos, source.drop (pos + 1), ?_, ?_⟩
  · rw [← hget, List.getElem_cons_drop, List.take_append_drop]
  · rw [List.length_take]
    omega

/-- A walk that reads no more bytes than the source has keeps the pace. -/
theorem walkReads_le (opener closer : UInt8) (inner : Nat) (bytes : List UInt8) :
    walkReads bytes (nested opener closer inner bytes) ≤ bytes.length := by
  cases h : nested opener closer inner bytes with
  | none => exact Nat.le_refl _
  | some passed => exact lt_of_nested h

/-- Behind the jump of a bracket whose walk over `bytes` began at `pc`, the processor follows the
execution: it ends up where the walk ends, or at the zero byte behind the walk. -/
theorem follows_jump {direction : Direction} {pc valIn bytes partner?} {bus : Peripheral}
    {cycles : Nat}
    (hlead : Leads 4 latched ⟨⟨pc, state.ptr, .scan direction 1⟩, valIn, bus, cycles⟩)
    (hloaded : Loaded source bus.program) (hagrees : Agrees policy total state bus)
    (halong : Addressed.Along direction bus.program pc bytes) (hlength : bytes.length ≤ 65534)
    (hfound : ∀ passed,
      nested direction.opener.byte direction.closer.byte 0 bytes = some passed →
      ∃ target, partner? = some target ∧ target < source.length
        ∧ direction.advance^[passed] pc + 1 = .ofNat (target + 1))
    (hmissed : nested direction.opener.byte direction.closer.byte 0 bytes = none →
      partner? = none ∧ bus.program.read (direction.advance^[bytes.length] pc) = 0) :
    Follows source policy total 1 pace latched (state.jump partner?) := by
  -- The walk begins with one open bracket. It reads at most 65534 bytes, two turns for each, which
  -- leaves `pace` the six turns in front of it and behind it.
  obtain ⟨depth, value, hwalk⟩ := Addressed.leads_walk direction state.ptr
    (show 0 + 1 + bytes.length ≤ 65535 by omega) halong valIn cycles
  have hreads := walkReads_le direction.opener.byte direction.closer.byte 0 bytes
  have hjump := hlead.trans hwalk
  cases hnested : nested direction.opener.byte direction.closer.byte 0 bytes with
  | some passed =>
      obtain ⟨target, rfl, htarget, hpc⟩ := hfound passed hnested
      rw [hnested] at hjump hreads
      refine ⟨_, _, ?_, ?_, hjump, htarget, ?_, hloaded, (hagrees.walked _).goTo _ _⟩
      · omega
      · show _ ≤ 131074
        omega
      · show (⟨direction.advance^[passed] pc + 1, state.ptr, .fetch⟩ : Core)
          = ⟨.ofNat (target + 1), state.ptr, .fetch⟩
        rw [hpc]
  | none =>
      obtain ⟨rfl, hzero⟩ := hmissed hnested
      rw [hnested] at hjump hreads
      -- The walk is still on its way, and the zero byte that it meets next halts the core.
      have hlast := Addressed.leads_scan (direction.advance^[bytes.length] pc) state.ptr value
        (bus.walked (walkReads bytes none)) (cycles + 2 * walkReads bytes none) direction depth
      rw [show (bus.walked (walkReads bytes none)).program.read
        (direction.advance^[bytes.length] pc) = 0 from hzero] at hlast
      refine ⟨_, _, ?_, hjump.trans hlast, rfl, hagrees.output⟩
      show _ ≤ 131074
      omega

/-- A `[` on a zero cell goes on behind its partner. The interpreter looks its partner up in the
whole source and the core counts brackets on its way, which `partnerOfOpen?_eq_nested` brings
together. Without a partner both of them halt. -/
theorem follows_open (h : Mirrors source policy total state latched)
    (hbyte : source[state.pos]? = some '['.toUInt8) (hcell : state.cell = 0) :
    Follows source policy total 1 pace latched
      (state.jump (partnerOfOpen? source state.pos)) := by
  have hload := h.load (h.loaded.read_source _ _ hbyte) .loopOpen fun _ _ => rfl
  rw [Core.apply, if_pos hcell] at hload
  -- The bracket splits the source. The walk to the right is along `back`.
  obtain ⟨front, back, hsource, hfront⟩ := exists_split hbyte
  have hlength : source.length = front.length + (back.length + 1) := by
    rw [hsource, List.length_append, List.length_cons]
  have hle := h.loaded.length_le
  have halong := along_forward h.loaded (front ++ ['['.toUInt8]) back (by simp [hsource])
  rw [List.length_append, List.length_singleton, UInt16.ofNat_add, hfront] at halong
  refine follows_jump hload h.loaded ((h.agrees.counted _).counted _) halong (by omega) ?_ ?_
  · intro passed hnested
    have hpassed := lt_of_nested hnested
    refine ⟨state.pos + 1 + passed, ?_, by omega, ?_⟩
    · rw [← hfront, hsource, partnerOfOpen?_eq_nested]
      exact congrArg _ hnested
    · rw [forward_iterate]
      simp only [UInt16.ofNat_add, Direction.advance]
      rfl
  · -- No partner: the walk leaves the source at its end, where the program reads zero.
    intro hnested
    refine ⟨?_, ?_⟩
    · rw [← hfront, hsource, partnerOfOpen?_eq_nested]
      exact congrArg _ hnested
    · rw [forward_iterate]
      have hend := h.loaded.read_end
      rw [hlength, hfront, Nat.add_comm back.length, ← Nat.add_assoc] at hend
      simp only [UInt16.ofNat_add] at hend
      exact hend

/-- A `]` on a cell that is not zero goes on behind its partner. Without one the core walks on past
address zero, and halts at the last byte of the address space, which is zero for every source that
fits. -/
theorem follows_close (h : Mirrors source policy total state latched)
    (hbyte : source[state.pos]? = some ']'.toUInt8) (hcell : state.cell ≠ 0) :
    Follows source policy total 1 pace latched
      (state.jump (partnerOfClose? source state.pos)) := by
  have hload := h.load (h.loaded.read_source _ _ hbyte) .loopClose fun _ _ => rfl
  rw [Core.apply, if_neg hcell] at hload
  -- The bracket splits the source. The walk to the left is along `front`, from its end.
  obtain ⟨front, back, hsource, hfront⟩ := exists_split hbyte
  have hlength : source.length = front.length + (back.length + 1) := by
    rw [hsource, List.length_append, List.length_cons]
  have hle := h.loaded.length_le
  have halong := along_backward h.loaded front (']'.toUInt8 :: back) hsource
  rw [hfront] at halong
  refine follows_jump hload h.loaded ((h.agrees.counted _).counted _) halong
    (by rw [List.length_reverse]; omega) ?_ ?_
  · intro passed hnested
    have hpassed := lt_of_nested hnested
    rw [List.length_reverse] at hpassed
    refine ⟨state.pos - 1 - passed, ?_, by omega, ?_⟩
    · rw [← hfront, hsource, partnerOfClose?_eq_nested]
      exact congrArg _ hnested
    · -- The address of the bracket, spelled so that the steps back can be taken off it one by one.
      have hpos : UInt16.ofNat state.pos
          = .ofNat (state.pos - 1 - passed) + .ofNat 1 + .ofNat passed := by
        rw [← UInt16.ofNat_add, ← UInt16.ofNat_add]
        congr 1
        omega
      rw [backward_iterate, Direction.advance, hpos, UInt16.ofNat_add]
      grind
  · -- No partner: the walk leaves the source at its front, and the address wraps to the last byte.
    intro hnested
    refine ⟨?_, ?_⟩
    · rw [← hfront, hsource, partnerOfClose?_eq_nested]
      exact congrArg _ hnested
    · rw [backward_iterate, List.length_reverse, hfront, Direction.advance]
      rw [show UInt16.ofNat state.pos - 1 - .ofNat state.pos = 65535 by grind]
      exact h.loaded.read_last

/-! ### Every byte -/

/-- A byte that spells no instruction is passed over. -/
theorem decode_comment {core : Core} {byte : UInt8} (hzero : byte ≠ 0)
    (hplain : ∀ glyph ∈ ['>', '<', '+', '-', '.', ',', '[', ']'], byte ≠ glyph.toUInt8) :
    core.decode byte = core.nextInstruction := by
  have hnone : Instruction.ofByte? byte = none := by
    simp only [List.mem_cons, List.not_mem_nil, or_false, forall_eq_or_imp, forall_eq] at hplain
    unfold Instruction.ofByte?
    split <;> first | rfl | exact absurd hplain (by decide)
  rw [Core.decode, hnone]
  exact if_neg hzero

/-- The processor follows the byte that is up: from states that mirror each other, one step of the
interpreter and the turns that the processor takes for it lead to such states again, or to the same
end. -/
theorem follows_step (h : Mirrors source policy total state latched) :
    Follows source policy total 1 pace latched (step source policy state) := by
  rw [step]
  cases hbyte : source[state.pos]? with
  | none =>
      -- Behind the source there is a zero, which halts the core.
      have hpos : state.pos = source.length :=
        Nat.le_antisymm h.pos_le (List.getElem?_eq_none_iff.mp hbyte)
      have hfetch := h.fetch (hpos ▸ h.loaded.read_end)
      exact ⟨2, _, by decide, hfetch, rfl, h.agrees.output⟩
  | some byte =>
      have hpos : state.pos < source.length := (List.getElem?_eq_some_iff.mp hbyte).1
      have hread := h.loaded.read_source _ _ hbyte
      dsimp only
      split_ifs with hright hleft hinc hdec hemit haccept hopen hzero hclose hzero'
      · -- A move leaves the cells as they are.
        subst hright
        exact follows_next (h.fetch hread) (by decide) (by decide) hpos rfl h.loaded
          ((h.agrees.counted _).goTo _ _)
      · subst hleft
        exact follows_next (h.fetch hread) (by decide) (by decide) hpos rfl h.loaded
          ((h.agrees.counted _).goTo _ _)
      · -- The next three instructions load the current cell and use it.
        subst hinc
        exact follows_put h hpos hread .increment (fun _ _ => rfl) fun _ _ => rfl
      · subst hdec
        exact follows_put h hpos hread .decrement (fun _ _ => rfl) fun _ _ => rfl
      · subst hemit
        exact follows_emit h hpos hread
      · -- A read may starve, and a bracket may jump.
        subst haccept
        exact follows_accept h hpos hread
      · subst hopen
        exact follows_open h hbyte hzero
      · subst hopen
        have hload := h.load hread .loopOpen fun _ _ => rfl
        rw [Core.apply, if_neg hzero] at hload
        exact follows_next hload (by decide) (by decide) hpos rfl h.loaded
          ((h.agrees.counted _).counted _)
      · subst hclose
        have hload := h.load hread .loopClose fun _ _ => rfl
        rw [Core.apply, if_pos hzero'] at hload
        exact follows_next hload (by decide) (by decide) hpos rfl h.loaded
          ((h.agrees.counted _).counted _)
      · subst hclose
        exact follows_close h hbyte hzero'
      · -- Any other byte is a comment; it is not zero, because it stands in the source.
        have hfetch := h.fetch hread
        rw [decode_comment (h.loaded.ne_zero _ (List.mem_of_getElem? hbyte))
          (by simp_all)] at hfetch
        exact follows_next hfetch (by decide) (by decide) hpos rfl h.loaded (h.agrees.counted _)

/-- The processor follows an execution over any number of steps. Each takes a cycle at least, so an
execution without an end is a run that no budget outlasts, and `pace` cycles at most, so an
execution that ends is a run that some budget does. -/
theorem follows_run (steps : Nat) (h : Mirrors source policy total state latched) :
    Follows source policy total steps (pace * steps) latched (run source policy steps state) := by
  -- Induction on the steps: the turns of the first step are put in front of the turns that the
  -- rest of the steps takes, and `pace` is added for it.
  induction steps generalizing state latched with
  | zero => exact ⟨0, latched, Nat.le_refl 0, Nat.zero_le _, .refl latched, h⟩
  | succ steps ih =>
      have hstep := follows_step h
      rw [run]
      cases hprogress : step source policy state with
      | running next =>
          rw [hprogress] at hstep
          obtain ⟨n, middle, hn, hpace, hfirst, hmirrors⟩ := hstep
          have hrest := ih hmirrors
          dsimp only
          cases hrun : run source policy steps next with
          | running final =>
              rw [hrun] at hrest
              obtain ⟨m, last, hm, hmost, hsecond, hlast⟩ := hrest
              exact ⟨n + m, last, by omega, by rw [Nat.mul_succ]; omega, hfirst.trans hsecond,
                hlast⟩
          | halted output =>
              rw [hrun] at hrest
              obtain ⟨m, last, hmost, hsecond, hlast⟩ := hrest
              exact ⟨n + m, last, by rw [Nat.mul_succ]; omega, hfirst.trans hsecond, hlast⟩
          | starved =>
              rw [hrun] at hrest
              obtain ⟨m, last, stuck, notes, hmost, hsecond, hlast⟩ := hrest
              exact ⟨n + m, last, stuck, notes, by rw [Nat.mul_succ]; omega,
                hfirst.trans hsecond, hlast⟩
      | halted output =>
          rw [hprogress] at hstep
          obtain ⟨n, last, hpace, hlast⟩ := hstep
          exact ⟨n, last, by rw [Nat.mul_succ]; omega, hlast⟩
      | starved =>
          rw [hprogress] at hstep
          obtain ⟨n, last, stuck, notes, hpace, hlast⟩ := hstep
          exact ⟨n, last, stuck, notes, by rw [Nat.mul_succ]; omega, hlast⟩

/-! ### Whole runs -/

/-- A case that fits has its stores, which depend on the bench only through the policy. This is why
the number of cycles in `verdict_cpu_meaning` can be the same on every bench. -/
theorem exists_stores {case : Case} (hprogram : case.program.size ≤ 65535)
    (himage : case.dataImage.size ≤ 65536) :
    ∃ program data, Loaded (sourceOf case.program) program
      ∧ (∀ addr, data.read addr = case.dataImage.getD addr.toNat 0)
      ∧ ∀ config, case.stores config
        = .ok ⟨program, data, .ofInput case.input (case.policy config .addressed), {}⟩ := by
  have hrom : Memory.Rom.load case.program = .ok ⟨case.program, Nat.le_succ_of_le hprogram⟩ :=
    dif_pos _
  obtain ⟨data, hram⟩ : ∃ data, Memory.Ram.load case.dataImage = .ok data := ⟨_, dif_pos himage⟩
  refine ⟨_, data, loaded_of_load hrom hprogram, Memory.Ram.read_of_load hram, ?_⟩
  intro config
  rw [Case.stores, hrom, hram]

/-- At the first fetch the processor mirrors the start of the execution. -/
theorem mirrors_start {case : Case} {program : Memory.Rom} {data : Memory.Ram}
    (hloaded : Loaded (sourceOf case.program) program)
    (hdata : ∀ addr, data.read addr = case.dataImage.getD addr.toNat 0) (policy : Exhaustion) :
    Mirrors (sourceOf case.program) policy case.input.size (start case)
      { core := cpu.start, bus := ⟨program, data, .ofInput case.input policy, {}⟩ } := by
  refine ⟨Nat.zero_le _, rfl, hloaded, hdata, rfl, rfl, rfl, ?_⟩
  show 0 + case.input.toList.length = case.input.size
  rw [Nat.zero_add, Array.length_toList]

/-- The processor computes the meaning of its program, for every case that fits and whatever
stands in for exhausted input.

* An execution that halts after `steps` steps with some output takes a number `n` of cycles that is
  the same on every bench, at most `pace` for each step. A run whose budget allows `n` cycles is
  graded on exactly this output.
* An execution that starves lets the run fault in cycle `n`, with the whole input consumed.
* An execution that never ends lets every run time out.

A run whose budget ends before that times out as well. -/
theorem verdict_cpu_meaning (case : Case) (policy : Exhaustion)
    (hprogram : case.program.size ≤ 65535) (himage : case.dataImage.size ≤ 65536) :
    (∀ steps output, run (sourceOf case.program) policy steps (start case) = .halted output →
      ∃ n tally, n ≤ pace * steps ∧
        ∀ (config : Config) (journal : Journal), case.policy config .addressed = policy →
          (cpu.pins.run config case cpu.powerOn journal).verdict
            = if config.cycleBudget.toNat < n then .error (.timeout config.cycleBudget.toNat)
              else if output = case.expected then .ok ⟨n, output, tally⟩
              else .error (.outputMismatch case.expected output))
    ∧ (∀ steps, run (sourceOf case.program) policy steps (start case) = .starved →
      ∃ n, n ≤ pace * steps ∧
        ∀ (config : Config) (journal : Journal), case.policy config .addressed = policy →
          (cpu.pins.run config case cpu.powerOn journal).verdict
            = if config.cycleBudget.toNat ≤ n then .error (.timeout config.cycleBudget.toNat)
              else .error (.inputExhausted case.input.size))
    ∧ ((∀ steps, ∃ state,
        run (sourceOf case.program) policy steps (start case) = .running state) →
      ∀ (config : Config) (journal : Journal), case.policy config .addressed = policy →
        (cpu.pins.run config case cpu.powerOn journal).verdict
          = .error (.timeout config.cycleBudget.toNat)) := by
  obtain ⟨program, data, hloaded, hdata, hstores⟩ := exists_stores hprogram himage
  have hstart := mirrors_start hloaded hdata policy
  refine ⟨?_, ?_, ?_⟩
  · intro steps output hrun
    have hfollows := follows_run steps hstart
    rw [hrun] at hfollows
    obtain ⟨n, last, hn, ⟨notes, hcycled⟩, hhalted, houtput⟩ := hfollows
    refine ⟨n, last.bus.tally, hn, ?_⟩
    intro config journal hpolicy
    have hbus := hstores config
    rw [hpolicy] at hbus
    rw [(cpu.run_pins config case cpu.powerOn journal).1,
      cpu.verdict_of_halted hbus rfl hcycled hhalted journal, houtput, Case.grade]
    split_ifs <;> first | rfl | omega
  · intro steps hrun
    have hfollows := follows_run steps hstart
    rw [hrun] at hfollows
    obtain ⟨n, last, stuck, more, hn, ⟨notes, hcycled⟩, hrunning, hfault⟩ := hfollows
    refine ⟨n, hn, ?_⟩
    intro config journal hpolicy
    have hbus := hstores config
    rw [hpolicy] at hbus
    rw [(cpu.run_pins config case cpu.powerOn journal).1,
      cpu.verdict_of_faulted hbus rfl hcycled hrunning hfault journal]
    split_ifs <;> first | rfl | omega
  · intro hendless config journal hpolicy
    have hbus := hstores config
    rw [hpolicy] at hbus
    -- One step more than the budget has cycles takes more cycles than the budget has.
    obtain ⟨state, hrun⟩ := hendless (config.cycleBudget.toNat + 1)
    have hfollows := follows_run (config.cycleBudget.toNat + 1) hstart
    rw [hrun] at hfollows
    obtain ⟨n, last, hn, _, ⟨notes, hcycled⟩, _⟩ := hfollows
    rw [(cpu.run_pins config case cpu.powerOn journal).1,
      cpu.verdict_of_lt hbus rfl hcycled (by omega) journal]

/-- `,[.,]` copies its input up to a zero. -/
def copying : Case :=
  { name := "copy", program := #[44, 91, 46, 44, 93], input := #[7, 0], expected := #[7] }

/-- `+[,.]` copies its input beyond the end. -/
def starving : Case :=
  { name := "starve", program := #[43, 91, 44, 46, 93], input := #[7] }

/-- `+[]` loops for ever. -/
def looping : Case :=
  { name := "loop", program := #[43, 91, 93] }

/-- An execution that comes back to the same state never ends. -/
theorem run_of_fixed (h : step source policy state = .running state) (steps : Nat) :
    run source policy steps state = .running state := by
  induction steps with
  | zero => rfl
  | succ steps ih =>
      rw [run, h]
      exact ih

/-- Behind its first two bytes the loop comes back to its closing bracket for ever. So no number of
steps ends it, which is the hypothesis of the third case. -/
theorem run_looping (steps : Nat) :
    ∃ state, run (sourceOf looping.program) .fail steps (start looping) = .running state := by
  match steps with
  | 0 => exact ⟨_, rfl⟩
  | 1 => exact ⟨_, rfl⟩
  | steps + 2 =>
      have hfixed : step (sourceOf looping.program) .fail
          { (start looping) with pos := 2, cells := fun addr => if 0 = addr then 1 else 0 }
          = .running
            { (start looping) with pos := 2, cells := fun addr => if 0 = addr then 1 else 0 } :=
        rfl
      exact ⟨_, run_of_fixed hfixed steps⟩

/-- The three ends, each for a program that comes to it. -/
theorem verdict_cpu_meaning_three_ends :
    (run (sourceOf copying.program) .fail 6 (start copying) = .halted #[7]
      ∧ ∃ n tally, n ≤ pace * 6 ∧
        ∀ (config : Config) (journal : Journal), copying.policy config .addressed = .fail →
          (cpu.pins.run config copying cpu.powerOn journal).verdict
            = if config.cycleBudget.toNat < n then .error (.timeout config.cycleBudget.toNat)
              else if #[7] = copying.expected then .ok ⟨n, #[7], tally⟩
              else .error (.outputMismatch copying.expected #[7]))
    ∧ (run (sourceOf starving.program) .fail 6 (start starving) = .starved
      ∧ ∃ n, n ≤ pace * 6 ∧
        ∀ (config : Config) (journal : Journal), starving.policy config .addressed = .fail →
          (cpu.pins.run config starving cpu.powerOn journal).verdict
            = if config.cycleBudget.toNat ≤ n then .error (.timeout config.cycleBudget.toNat)
              else .error (.inputExhausted 1))
    ∧ ∀ (config : Config) (journal : Journal), looping.policy config .addressed = .fail →
        (cpu.pins.run config looping cpu.powerOn journal).verdict
          = .error (.timeout config.cycleBudget.toNat) := by
  refine ⟨⟨rfl, ?_⟩, ⟨rfl, ?_⟩, ?_⟩
  · exact (verdict_cpu_meaning copying .fail (by decide) (by decide)).1 6 #[7] rfl
  · exact (verdict_cpu_meaning starving .fail (by decide) (by decide)).2.1 6 rfl
  · exact (verdict_cpu_meaning looping .fail (by decide) (by decide)).2.2 run_looping

end TapeBench.Meaning
