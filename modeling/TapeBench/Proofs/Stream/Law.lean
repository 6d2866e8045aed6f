import TapeBench.Connection
import TapeBench.Proofs.Stream.Drivers
import TapeBench.Scripted.Device

/-!
# `TapeBench.Proofs.Stream.Law`: what a run can tell about its input

Over each encoding a run sees its input as a stream that the policy extends: what a run did not read
it cannot know, and past the end of the input it sees what the policy gives.

* `verdict_tracked`: the verdicts of two runs, the input of one continuing that of the other.
* `Streamed`: the law of input streams.
* `run_streamed`: runs keep it, whatever the connection and the device.
-/

set_option autoImplicit false

namespace TapeBench

open Memory (Rom Ram)

namespace Connection

variable {σ : Type}

/-- The policy that a run is under: that of the case, else of the bench, else of the encoding. -/
def policy (connection : Connection σ) (config : Config) (case : Case) : Exhaustion :=
  case.policy config <|
    match connection with
    | addressed _ | serial _ => .addressed
    | separatePin _ => .separatePin

/-- The verdict of a run. -/
def verdict (connection : Connection σ) (config : Config) (case : Case) (device : σ)
    (journal : Journal) : Verdict :=
  (connection.run config case device journal).verdict

end Connection

variable {σ : Type} {policy : Exhaustion}

/-- An input and the same input with a tail, before the first read. -/
theorem Channel.continues_ofInput {further : Exhaustion} {tail : Bytes}
    (htail : ∀ byte, policy = .returnByte byte →
      further = .returnByte byte ∧ ∀ extra ∈ tail.toList, extra = byte) (input : Bytes) :
    Continues policy input.size (.ofInput input policy) (.ofInput (input ++ tail) further) where
  onExhausted := rfl
  length := by simp only [ofInput, Nat.zero_add, Array.length_toList]
  output := rfl
  input := ⟨tail.toList, Array.toList_append, htail⟩

/-- The images of a case alone decide whether it is refused, and what its memories hold. So a case
with a longer input or with another policy is refused as the case itself is. -/
theorem Case.stores_of_images (case : Case) :
    (∃ fault : Fault, (∀ consumed, fault ≠ .inputExhausted consumed) ∧
      ∀ (other : Case) (config : Config), other.program = case.program →
        other.dataImage = case.dataImage → other.stores config = .error fault)
    ∨ ∃ program data, ∀ (other : Case) (config : Config), other.program = case.program →
        other.dataImage = case.dataImage → other.stores config
          = .ok ⟨program, data, .ofInput other.input (other.policy config .addressed), {}⟩ := by
  by_cases hprogram : case.program.size ≤ addressSpace
  · by_cases himage : case.dataImage.size ≤ addressSpace
    · obtain ⟨data, hdata⟩ : ∃ data, Ram.load case.dataImage = .ok data := ⟨_, dif_pos himage⟩
      refine .inr ⟨⟨case.program, hprogram⟩, data, fun other config hsame hdatas => ?_⟩
      rw [stores, hsame, hdatas, show Rom.load case.program = _ from dif_pos hprogram, hdata]
    · refine .inl ⟨.dataImageTooLarge case.dataImage.size, by simp,
        fun other config hsame hdatas => ?_⟩
      rw [stores, hsame, hdatas, show Rom.load case.program = _ from dif_pos hprogram,
        show Ram.load case.dataImage = _ from dif_neg himage]
  · refine .inl ⟨.programTooLarge case.program.size, by simp, fun other config hsame _ => ?_⟩
    rw [stores, hsame, show Rom.load case.program = _ from dif_neg hprogram]

/-- The verdict on a case tracks the verdict on the same case with a tail behind its input, over a
bench and for a case with policies of their own. -/
theorem verdict_tracked (connection : Connection σ) (config : Config) (case : Case) (device : σ)
    (journal : Journal) (onBench onCase : Option Exhaustion) (tail : Bytes)
    (htail : ∀ byte, connection.policy config case = .returnByte byte →
      connection.policy { config with onExhausted := onBench }
          { case with input := case.input ++ tail, onExhausted := onCase } = .returnByte byte
        ∧ ∀ extra ∈ tail.toList, extra = byte) :
    Tracked (connection.policy config case) case.input.size
      (connection.verdict config case device journal)
      (connection.verdict { config with onExhausted := onBench }
        { case with input := case.input ++ tail, onExhausted := onCase } device journal) := by
  -- The longer input continues the shorter one. What is left is to run it through each driver.
  have hchannel := Channel.continues_ofInput htail case.input
  cases connection with
  | addressed pins =>
      rcases case.stores_of_images with ⟨fault, hfed, hrefused⟩ | ⟨program, data, hstores⟩
      · -- The images are those of either case, and they are refused before the input is looked at.
        simp only [Connection.verdict, Connection.run, Addressed.Device.run,
          hrefused case config rfl rfl, hrefused
            { case with input := case.input ++ tail, onExhausted := onCase }
            { config with onExhausted := onBench } rfl rfl]
        exact .same (by simpa using hfed)
      · obtain ⟨opening, -, hrun⟩ := pins.run_eq (hstores case config rfl rfl) device journal
        obtain ⟨opening', -, hrun'⟩ := pins.run_eq (hstores
          { case with input := case.input ++ tail, onExhausted := onCase }
          { config with onExhausted := onBench } rfl rfl) device journal
        simp only [Connection.verdict, Connection.run]
        rw [hrun, hrun']
        refine Clocking.run_tracked (Addressed.Rig.Continues _ _) ?_ ?_ ?_ rfl _
          (.rigs (.stores hchannel)) _ _
        · rintro _ _ ⟨-⟩
          rfl
        · exact fun _ _ h => h.cycle pins
        · rintro _ _ ⟨⟨h⟩⟩
          exact ⟨rfl, h.output, rfl⟩
  | separatePin pins =>
      cases hload : Rom.load case.program with
      | error fault =>
          simp only [Connection.verdict, Connection.run, SeparatePin.Device.run, hload]
          refine .same ?_
          unfold Rom.load at hload
          split at hload <;> cases hload
          simp
      | ok program =>
          obtain ⟨opening, -, hrun⟩ :=
            @SeparatePin.Device.run_eq _ pins config case program hload device journal
          obtain ⟨opening', -, hrun'⟩ :=
            @SeparatePin.Device.run_eq _ pins { config with onExhausted := onBench }
              { case with input := case.input ++ tail, onExhausted := onCase } program hload device
              journal
          simp only [Connection.verdict, Connection.run]
          rw [hrun, hrun']
          refine Clocking.run_tracked (SeparatePin.Rig.Continues _ _) ?_ ?_ ?_ rfl _
            (.rigs hchannel) _ _
          · rintro _ _ ⟨-⟩
            rfl
          · exact fun _ _ h => h.cycle pins
          · rintro _ _ ⟨h⟩
            exact ⟨rfl, h.output, rfl⟩
  | serial link =>
      rcases case.stores_of_images with ⟨fault, hfed, hrefused⟩ | ⟨program, data, hstores⟩
      · simp only [Connection.verdict, Connection.run, Serial.Link.run,
          hrefused case config rfl rfl, hrefused
            { case with input := case.input ++ tail, onExhausted := onCase }
            { config with onExhausted := onBench } rfl rfl]
        exact .same (by simpa using hfed)
      · exact Serial.run_tracked link (hstores case config rfl rfl)
          (hstores { case with input := case.input ++ tail, onExhausted := onCase }
            { config with onExhausted := onBench } rfl rfl)
          (.stores hchannel) rfl rfl rfl device journal

/-- What a run can tell about its input:

- `substituted`: under a policy that gives a byte, copies of that byte behind the input change
  nothing;
- `endless`: under such a policy no run faults at the end of the input;
- `unasked`: a run that may fault there and does not would end the same way under every policy, of
  the bench or of the case;
- `prolonged`: it would end the same way with more input;
- `starved`: a run that faults there has read the whole input. -/
structure Streamed (connection : Connection σ) (config : Config) (case : Case) (device : σ)
    (journal : Journal) : Prop where
  substituted : ∀ byte, connection.policy config case = .returnByte byte → ∀ count,
    connection.verdict config { case with input := case.input ++ Array.replicate count byte }
      device journal = connection.verdict config case device journal
  endless : ∀ byte, connection.policy config case = .returnByte byte → ∀ consumed,
    connection.verdict config case device journal ≠ .error (.inputExhausted consumed)
  unasked : connection.policy config case = .fail →
    (∀ consumed, connection.verdict config case device journal
      ≠ .error (.inputExhausted consumed)) →
    ∀ onBench onCase, connection.verdict { config with onExhausted := onBench }
        { case with onExhausted := onCase } device journal
      = connection.verdict config case device journal
  prolonged : connection.policy config case = .fail →
    (∀ consumed, connection.verdict config case device journal
      ≠ .error (.inputExhausted consumed)) →
    ∀ more, connection.verdict config { case with input := case.input ++ more } device journal
      = connection.verdict config case device journal
  starved : connection.policy config case = .fail → ∀ consumed,
    connection.verdict config case device journal = .error (.inputExhausted consumed) →
      consumed = case.input.size

/-- A run sees its input as a stream that the policy extends, whatever the connection and the
device. All five laws are cases of `verdict_tracked`, which runs the same device in front of two
inputs of which the longer one continues the shorter one. -/
theorem run_streamed (connection : Connection σ) (config : Config) (case : Case) (device : σ)
    (journal : Journal) : Streamed connection config case device journal := by
  -- Without a byte to give, the tail and the policies of the second run may be any.
  have hbare : ∀ onBench onCase tail, connection.policy config case = .fail →
      Tracked (connection.policy config case) case.input.size
        (connection.verdict config case device journal)
        (connection.verdict { config with onExhausted := onBench }
          { case with input := case.input ++ tail, onExhausted := onCase } device journal) := by
    intro onBench onCase tail hpolicy
    refine verdict_tracked connection config case device journal onBench onCase tail ?_
    intro byte hgives
    rw [hpolicy] at hgives
    cases hgives
  -- With a byte to give, the second run must have that byte again and again as its tail.
  have hgiven : ∀ byte count, connection.policy config case = .returnByte byte →
      Tracked (connection.policy config case) case.input.size
        (connection.verdict config case device journal)
        (connection.verdict config
          { case with input := case.input ++ Array.replicate count byte } device journal) := by
    intro byte count hpolicy
    refine verdict_tracked connection config case device journal config.onExhausted
      case.onExhausted (Array.replicate count byte) ?_
    intro given hgives
    obtain rfl : byte = given := Exhaustion.returnByte.inj (hpolicy.symm.trans hgives)
    refine ⟨hpolicy, fun extra hextra => ?_⟩
    rw [Array.toList_replicate] at hextra
    exact List.eq_of_mem_replicate hextra
  refine ⟨?substituted, ?endless, ?unasked, ?prolonged, ?starved⟩
  case substituted =>
    intro byte hpolicy count
    exact (hgiven byte count hpolicy).eq_of_fed ((hgiven byte 0 hpolicy).fed_of_returnByte hpolicy)
  case endless =>
    intro byte hpolicy
    exact (hgiven byte 0 hpolicy).fed_of_returnByte hpolicy
  case unasked =>
    intro hpolicy hfed onBench onCase
    have hsame := (hbare onBench onCase #[] hpolicy).eq_of_fed hfed
    rwa [Array.append_empty] at hsame
  case prolonged =>
    intro hpolicy hfed more
    exact (hbare config.onExhausted case.onExhausted more hpolicy).eq_of_fed hfed
  case starved =>
    intro hpolicy consumed hverdict
    exact (hbare none none #[] hpolicy).consumed_eq hverdict

/-- A case with one byte of input. -/
def oneGiven : Case :=
  { name := "one byte given", input := #[7] }

/-- A device that reads one byte and halts passes with one byte of input, with two, and under a
policy that gives a byte. A device that reads two bytes faults behind the first one over the
addressed bus, and over separate pins it is given zeros. -/
theorem run_streamed_one_given :
    ((Connection.addressed Scripted.addressed).policy {} oneGiven = .fail
      ∧ (Connection.addressed Scripted.addressed).verdict { cycleBudget := 2 }
          { oneGiven with input := #[7] ++ #[8] } { rows := #[⟨6, 0, 0⟩], haltAt := some 1 } .silent
        = .ok ⟨1, #[], { readIo := 1 }⟩
      ∧ (Connection.addressed Scripted.addressed).verdict
          { cycleBudget := 2, onExhausted := some (.returnByte 3) } oneGiven
          { rows := #[⟨6, 0, 0⟩], haltAt := some 1 } .silent
        = .ok ⟨1, #[], { readIo := 1 }⟩)
    ∧ ((Connection.addressed Scripted.addressed).verdict { cycleBudget := 2 } oneGiven
          { rows := #[⟨6, 0, 0⟩, ⟨6, 0, 0⟩], haltAt := some 2 } .silent
        = .error (.inputExhausted 1)
      ∧ 1 = oneGiven.input.size)
    ∧ (Connection.separatePin Scripted.separatePin).policy {} oneGiven = .returnByte 0
    ∧ (Connection.separatePin Scripted.separatePin).verdict { cycleBudget := 2 }
        { oneGiven with input := #[7] ++ Array.replicate 3 0 }
        { rows := #[⟨false, 0, true⟩, ⟨false, 0, true⟩], haltAt := some 2 } .silent
      = .ok ⟨2, #[], { readIo := 2 }⟩ := by
  -- A device that reads once never asks past its input.
  have hone := run_streamed (.addressed Scripted.addressed) { cycleBudget := 2 } oneGiven
    { rows := #[⟨6, 0, 0⟩], haltAt := some 1 } .silent
  have hpassed : (Connection.addressed Scripted.addressed).verdict { cycleBudget := 2 } oneGiven
      { rows := #[⟨6, 0, 0⟩], haltAt := some 1 } .silent = .ok ⟨1, #[], { readIo := 1 }⟩ := by
    decide +kernel
  have hfed : ∀ consumed, (Connection.addressed Scripted.addressed).verdict { cycleBudget := 2 }
      oneGiven { rows := #[⟨6, 0, 0⟩], haltAt := some 1 } .silent
        ≠ .error (.inputExhausted consumed) := by
    intro consumed
    rw [hpassed]
    simp
  -- The same device with a second read asks for a byte that is not there.
  have htwo := run_streamed (.addressed Scripted.addressed) { cycleBudget := 2 } oneGiven
    { rows := #[⟨6, 0, 0⟩, ⟨6, 0, 0⟩], haltAt := some 2 } .silent
  have hstarved : (Connection.addressed Scripted.addressed).verdict { cycleBudget := 2 } oneGiven
      { rows := #[⟨6, 0, 0⟩, ⟨6, 0, 0⟩], haltAt := some 2 } .silent
        = .error (.inputExhausted 1) := by
    decide +kernel
  have hpins := run_streamed (.separatePin Scripted.separatePin) { cycleBudget := 2 } oneGiven
    { rows := #[⟨false, 0, true⟩, ⟨false, 0, true⟩], haltAt := some 2 } .silent
  have hzeros : (Connection.separatePin Scripted.separatePin).verdict { cycleBudget := 2 } oneGiven
      { rows := #[⟨false, 0, true⟩, ⟨false, 0, true⟩], haltAt := some 2 } .silent
      = .ok ⟨2, #[], { readIo := 2 }⟩ := by
    decide +kernel
  refine ⟨⟨rfl, ?_, ?_⟩, ⟨hstarved, htwo.starved rfl 1 hstarved⟩, rfl, ?_⟩
  · exact (hone.prolonged rfl hfed #[8]).trans hpassed
  · exact (hone.unasked rfl hfed (some (.returnByte 3)) none).trans hpassed
  · exact (hpins.substituted 0 rfl 3).trans hzeros

end TapeBench
