import TapeBench.Proofs.Peripheral

/-!
# `TapeBench.Proofs.History`: the stores answer from their history

The stores keep cells, streams and counts. What they answer can be said without any of these: from
the images and the input that they were made of, and from the requests before. `Follows` says that
the stores are where a history has led them. One request keeps it (`follows_resolve`), so it holds
behind every sequence of requests, and a fault in between does not matter.

* `Supplies`: what stores are made of.
* `answerTo`: the answer to a request behind a history.
* `Peripheral.answers`, `Peripheral.behind`: the answers to a sequence of requests, and the stores
  behind it.
* `answers_history`: stores that were made of supplies answer from their history.
* `Tally.total`, `Peripheral.total_behind`: the stores have counted every request of a history.
-/

set_option autoImplicit false

namespace TapeBench

open Bus (Op Request)
open Memory (Rom Ram)

/-- What stores are made of:

- `program`: the program image;
- `image`: the data image;
- `input`: the input stream;
- `policy`: what a read past the end of the input gives. -/
structure Supplies where
  program : Bytes
  image : Bytes
  input : Bytes
  policy : Exhaustion

/-- The byte that the latest write to `addr` has left, if there was one. -/
def lastWritten? (addr : UInt16) (history : List Request) : Option UInt8 :=
  (history.reverse.find? fun request => request.op = .writeData && request.addr = addr).map
    Request.value

/-- The bytes that were written to the output, in order. -/
def emitted (history : List Request) : List UInt8 :=
  (history.filter fun request => request.op = .writeIo).map Request.value

/-- Number of reads of the input, with or without success. -/
def inputReads (history : List Request) : Nat :=
  history.countP fun request => request.op = .readIo

namespace Supplies

/-- What a read of the input gives behind `index` others. -/
def inputAt (supplies : Supplies) (index : Nat) : Except Fault UInt8 :=
  match supplies.input[index]?, supplies.policy with
  | some byte, _ => .ok byte
  | none, .returnByte byte => .ok byte
  | none, .fail => .error (.inputExhausted supplies.input.size)

/-- The answer to a request behind a history. -/
def answerTo (supplies : Supplies) (history : List Request) (request : Request) :
    Except Fault UInt8 :=
  match request.op with
  | .readProgram => .ok (supplies.program.getD request.addr.toNat 0)
  | .readData =>
    .ok ((lastWritten? request.addr history).getD (supplies.image.getD request.addr.toNat 0))
  | .readIo => supplies.inputAt (inputReads history)
  | .noOp | .writeData | .writeIo => .ok 0

/-- The streams behind a history. Reads behind the end of the input are not counted. -/
def channel (supplies : Supplies) (history : List Request) : Channel where
  input := supplies.input.toList.drop (inputReads history)
  consumed := min (inputReads history) supplies.input.size
  output := (emitted history).toArray
  onExhausted := supplies.policy

end Supplies

section Histories

variable (supplies : Supplies) (history : List Request) (request : Request)

/-- A later request replaces what was written to an address if it is a write to it. -/
theorem lastWritten?_concat (addr : UInt16) :
    lastWritten? addr (history ++ [request])
      = if request.op = .writeData && request.addr = addr then some request.value
        else lastWritten? addr history := by
  unfold lastWritten?
  rw [List.reverse_append, List.reverse_singleton, List.singleton_append, List.find?_cons]
  split <;> simp_all

/-- Only writes change what a cell holds. -/
theorem lastWritten?_concat_of_ne (addr : UInt16) (h : request.op ≠ .writeData) :
    lastWritten? addr (history ++ [request]) = lastWritten? addr history := by
  rw [lastWritten?_concat, if_neg (by simp [h])]

/-- A later request emits one byte more if it is a write to the output. -/
theorem emitted_concat :
    emitted (history ++ [request])
      = emitted history ++ if request.op = .writeIo then [request.value] else [] := by
  unfold emitted
  rw [List.filter_append, List.map_append, List.filter_cons]
  split <;> simp_all

/-- A later request counts once more if it is a read of the input. -/
theorem inputReads_concat :
    inputReads (history ++ [request])
      = inputReads history + if request.op = .readIo then 1 else 0 := by
  unfold inputReads
  rw [List.countP_append, List.countP_singleton]
  simp only [decide_eq_true_eq]

/-- Only reads of the input and writes to the output touch the streams. -/
theorem Supplies.channel_concat_of_ne (hread : request.op ≠ .readIo)
    (hwrite : request.op ≠ .writeIo) :
    supplies.channel (history ++ [request]) = supplies.channel history := by
  unfold Supplies.channel
  rw [inputReads_concat, if_neg hread, emitted_concat, if_neg hwrite, List.append_nil, Nat.add_zero]

/-- A write appends its byte. -/
theorem Supplies.channel_write (addr : UInt16) (value : UInt8) :
    (supplies.channel history).write value
      = supplies.channel (history ++ [⟨.writeIo, addr, value⟩]) := by
  unfold Supplies.channel
  rw [inputReads_concat, if_neg (by simp), emitted_concat, if_pos rfl]
  simp [Channel.write]

/-- A read takes the next byte, or what the policy gives for it. The number of reads so far says
which byte is next, also where some of the reads have failed: from the end of the input on there is
no next one. -/
theorem Supplies.channel_read (addr : UInt16) (value : UInt8) :
    ((supplies.channel history).read).result = supplies.inputAt (inputReads history)
      ∧ ((supplies.channel history).read).state
        = supplies.channel (history ++ [⟨.readIo, addr, value⟩]) := by
  obtain ⟨program, image, input, policy⟩ := supplies
  unfold Supplies.channel Supplies.inputAt
  rw [inputReads_concat, if_pos rfl, emitted_concat, if_neg (by simp), List.append_nil]
  have hsize : input.toList.length = input.size := Array.length_toList
  by_cases hleft : inputReads history < input.size
  · -- There is input left, and the read takes its first byte.
    have hdrop := List.drop_eq_getElem_cons (hsize.symm ▸ hleft)
    simp only [hdrop, Array.getElem?_eq_getElem hleft, Channel.read, Step.done]
    refine ⟨by rw [Array.getElem_toList], ?_⟩
    congr 1
    omega
  · -- The policy answers, and the channel stays as it is.
    have hdrop : input.toList.drop (inputReads history) = [] :=
      List.drop_eq_nil_of_le (by omega)
    have hnext : input.toList.drop (inputReads history + 1) = [] :=
      List.drop_eq_nil_of_le (by omega)
    have hconsumed : min (inputReads history) input.size = input.size := by omega
    have hcount : min (inputReads history + 1) input.size = input.size := by omega
    simp only [hdrop, hnext, hconsumed, hcount,
      Array.getElem?_eq_none (Nat.not_lt.mp hleft)]
    cases policy <;> exact ⟨rfl, rfl⟩

end Histories

/-- Number of requests that were counted, those for nothing among them. -/
def Tally.total (tally : Tally) : Nat :=
  tally.get .noOp + tally.effects

namespace Peripheral

/-- The answers to some requests, one after the other and past every fault. -/
def answers : (bus : Peripheral) → List Request → List (Except Fault UInt8)
  | _, [] => []
  | bus, request :: rest => (bus.resolve request).result :: (bus.resolve request).state.answers rest

/-- The stores behind some requests. -/
def behind : (bus : Peripheral) → List Request → Peripheral
  | bus, [] => bus
  | bus, request :: rest => (bus.resolve request).state.behind rest

/-- The stores are where a history has led those that were made of `supplies`:

- `program`: the program is the image, with zeros behind it;
- `data`: a cell holds what was written to it last, or else what the image says, or else zero;
- `channel`: the streams are those behind the history. -/
structure Follows (supplies : Supplies) (history : List Request) (bus : Peripheral) : Prop where
  program : ∀ addr, bus.program.read addr = supplies.program.getD addr.toNat 0
  data : ∀ addr, bus.data.read addr
    = (lastWritten? addr history).getD (supplies.image.getD addr.toNat 0)
  channel : bus.channel = supplies.channel history

/-- A request that fails leaves the stores as they are: the memories, the streams and the counts. -/
theorem state_of_resolve_error {bus : Peripheral} {request : Request} {fault : Fault}
    (h : (bus.resolve request).result = .error fault) : (bus.resolve request).state = bus := by
  obtain ⟨program, data, channel, tally⟩ := bus
  obtain ⟨op, addr, value⟩ := request
  cases op with
  | readIo =>
      rcases channel.read_cases with ⟨byte, after, lines, hread⟩ | ⟨-, hread⟩
      · simp only [resolve, hread, served, Step.done] at h
        cases h
      · simp only [resolve, hread]
  | noOp | readProgram | readData | writeData | writeIo => cases h

/-- A request that is answered is counted, and no other. A request for nothing is answered as well,
and has a count of its own. -/
theorem tally_resolve (bus : Peripheral) (request : Request) (op : Op) :
    (bus.resolve request).state.tally.get op
      = bus.tally.get op
        + if request.op = op && (bus.resolve request).result.isOk then 1 else 0 := by
  obtain ⟨program, data, channel, tally⟩ := bus
  obtain ⟨asked, addr, value⟩ := request
  have hrecord : (tally.record asked).get op = tally.get op + if asked = op then 1 else 0 := by
    rw [Tally.get_record]
    split <;> rfl
  cases asked with
  | readIo =>
      rcases channel.read_cases with ⟨byte, after, lines, hread⟩ | ⟨-, hread⟩
      · simpa [resolve, hread, served, Step.done, Except.isOk, Except.toBool] using hrecord
      · simp [resolve, hread, Except.isOk, Except.toBool]
  | noOp | readProgram | readData | writeData | writeIo =>
      simpa [resolve, served, Step.done, Except.isOk, Except.toBool] using hrecord

/-- Stores that were just made follow the empty history, with any counts: `Follows` speaks of the
memories and the streams, and the counts have their own law (`tally_behind`). -/
theorem follows_nil (supplies : Supplies) {program : Rom} {data : Ram}
    (hprogram : Rom.load supplies.program = .ok program)
    (hdata : Ram.load supplies.image = .ok data) (tally : Tally) :
    Follows supplies [] ⟨program, data, .ofInput supplies.input supplies.policy, tally⟩ where
  program := by
    intro addr
    show program.bytes.getD addr.toNat 0 = _
    rw [Rom.bytes_of_load hprogram]
  data := fun addr => Ram.read_of_load hdata addr
  channel := by
    show _ = Supplies.channel supplies []
    unfold Supplies.channel
    simp [Channel.ofInput, inputReads, emitted]

variable {supplies : Supplies} {history : List Request} {bus : Peripheral}

/-- Stores that follow a history answer from it, and follow it with the request behind it. A request
that is refused is in the history as well, where it changes nothing. So nothing has to be said about
faults. -/
theorem follows_resolve (h : Follows supplies history bus) (request : Request) :
    (bus.resolve request).result = supplies.answerTo history request
      ∧ Follows supplies (history ++ [request]) (bus.resolve request).state := by
  obtain ⟨program, data, channel, tally⟩ := bus
  obtain ⟨hprogram, hdata, hchannel⟩ := h
  simp only at hprogram hdata hchannel
  obtain ⟨op, addr, value⟩ := request
  -- Each operation touches one store at most, and the others follow as they did.
  have hcells : op ≠ .writeData → ∀ other, data.read other
      = (lastWritten? other (history ++ [⟨op, addr, value⟩])).getD
        (supplies.image.getD other.toNat 0) := by
    intro hop other
    rw [lastWritten?_concat_of_ne _ _ _ hop]
    exact hdata other
  have hstreams : op ≠ .readIo → op ≠ .writeIo →
      channel = supplies.channel (history ++ [⟨op, addr, value⟩]) := by
    intro hread hwrite
    rw [supplies.channel_concat_of_ne _ _ hread hwrite]
    exact hchannel
  cases op with
  | noOp => exact ⟨rfl, hprogram, hcells (by simp), hstreams (by simp) (by simp)⟩
  | readProgram =>
      exact ⟨congrArg Except.ok (hprogram addr), hprogram, hcells (by simp),
        hstreams (by simp) (by simp)⟩
  | readData =>
      exact ⟨congrArg Except.ok (hdata addr), hprogram, hcells (by simp),
        hstreams (by simp) (by simp)⟩
  | writeData =>
      refine ⟨rfl, hprogram, ?_, hstreams (by simp) (by simp)⟩
      intro other
      show (data.write addr value).read other = _
      rw [Ram.read_write, lastWritten?_concat]
      by_cases hother : addr = other
      · simp [hother]
      · simp [hother, hdata other]
  | readIo =>
      obtain ⟨hresult, hstate⟩ := supplies.channel_read history addr value
      rw [← hchannel] at hresult hstate
      obtain ⟨result, next, notes, hread⟩ :
          ∃ result next notes, channel.read = ⟨result, next, notes⟩ := ⟨_, _, _, rfl⟩
      rw [hread] at hresult hstate
      cases result <;> simp only [resolve, hread, served, Step.done] <;>
        exact ⟨hresult, hprogram, hcells (by simp), hstate⟩
  | writeIo =>
      refine ⟨rfl, hprogram, hcells (by simp), ?_⟩
      show channel.write value = _
      rw [hchannel, supplies.channel_write]

/-- Stores that follow a history give the answers that it asks for, and follow it with all requests
behind it. Each answer depends on the requests in front of it, which are the history and as many of
the later ones. -/
theorem follows_behind (h : Follows supplies history bus) (requests : List Request) :
    bus.answers requests = requests.mapIdx (fun index request =>
        supplies.answerTo (history ++ requests.take index) request)
      ∧ Follows supplies (history ++ requests) (bus.behind requests) := by
  -- Induction on the requests: the first of them becomes a part of the history.
  induction requests generalizing history bus with
  | nil =>
      rw [List.append_nil]
      exact ⟨rfl, h⟩
  | cons request rest ih =>
      obtain ⟨hanswer, hnext⟩ := follows_resolve h request
      obtain ⟨hanswers, hbehind⟩ := ih hnext
      simp only [List.append_assoc, List.singleton_append] at hanswers hbehind
      refine ⟨?_, hbehind⟩
      rw [answers, hanswer, hanswers, List.mapIdx_cons, List.take_zero, List.append_nil]
      simp only [List.take_succ_cons]

/-- The counts move with the requests that are answered, each count with the requests for its own
operation. -/
theorem tally_behind (bus : Peripheral) (requests : List Request) (op : Op) :
    (bus.behind requests).tally.get op
      = bus.tally.get op + (requests.zip (bus.answers requests)).countP
          fun call => call.1.op = op && call.2.isOk := by
  -- Induction on the requests: the first of them moves one count at most.
  induction requests generalizing bus with
  | nil => rfl
  | cons request rest ih =>
      show ((bus.resolve request).state.behind rest).tally.get op = _
      rw [ih, tally_resolve, answers, List.zip_cons_cons, List.countP_cons]
      rw [Nat.add_right_comm]
      exact Nat.add_assoc _ _ _

/-- A request that is served is counted once. -/
theorem total_resolve {bus next : Peripheral} {request : Request} {value : UInt8}
    {notes : List Note} (h : bus.resolve request = ⟨.ok value, next, notes⟩) :
    next.tally.total = bus.tally.total + 1 := by
  have hget : ∀ op, next.tally.get op = bus.tally.get op + if request.op = op then 1 else 0 := by
    intro op
    have hcount := bus.tally_resolve request op
    rw [h] at hcount
    simpa [Except.isOk, Except.toBool] using hcount
  simp only [Tally.total, Tally.effects, Op.active, List.foldl_cons, List.foldl_nil, hget]
  cases request.op <;> simp <;> omega

/-- Stores that serve every request count all of them, the requests for nothing included. -/
theorem total_behind {bus : Peripheral} {requests : List Request}
    {values : List UInt8} (h : bus.answers requests = values.map .ok) :
    (bus.behind requests).tally.total = bus.tally.total + requests.length := by
  -- Induction on the requests, from the stores that each of them leaves.
  induction requests generalizing bus values with
  | nil => rfl
  | cons request rest ih =>
      obtain ⟨result, next, notes, hresolve⟩ : ∃ result next notes,
          bus.resolve request = ⟨result, next, notes⟩ := ⟨_, _, _, rfl⟩
      cases values with
      | nil => cases h
      | cons value later =>
          simp only [answers, hresolve, List.map_cons, List.cons.injEq] at h
          obtain ⟨rfl, hrest⟩ := h
          have hbehind := ih hrest
          rw [total_resolve hresolve] at hbehind
          simp only [behind, hresolve, hbehind, List.length_cons]
          omega

end Peripheral

/-- Stores that were made of supplies answer every sequence of requests from its history, past every
fault. Their output is what was written to it, their counts are those of the answered requests, and
a request that fails changes nothing. -/
theorem answers_history (supplies : Supplies) (hprogram : supplies.program.size ≤ addressSpace)
    (himage : supplies.image.size ≤ addressSpace) :
    ∃ fresh : Peripheral,
      (∃ program data, Rom.load supplies.program = .ok program
        ∧ Ram.load supplies.image = .ok data
        ∧ fresh = ⟨program, data, .ofInput supplies.input supplies.policy, {}⟩)
      ∧ ∀ requests : List Request,
        fresh.answers requests = requests.mapIdx (fun index request =>
            supplies.answerTo (requests.take index) request)
          ∧ (fresh.behind requests).channel.output.toList = emitted requests
          ∧ (∀ op, (fresh.behind requests).tally.get op
            = (requests.zip (fresh.answers requests)).countP
                fun call => call.1.op = op && call.2.isOk)
          ∧ ∀ request fault, ((fresh.behind requests).resolve request).result = .error fault →
            ((fresh.behind requests).resolve request).state = fresh.behind requests := by
  obtain ⟨data, hdata⟩ : ∃ data, Ram.load supplies.image = .ok data := ⟨_, dif_pos himage⟩
  have hload : Rom.load supplies.program = .ok ⟨supplies.program, hprogram⟩ := dif_pos hprogram
  refine ⟨_, ⟨_, data, hload, hdata, rfl⟩, ?_⟩
  intro requests
  -- Fresh stores follow the empty history, and from there on every request is added to it.
  obtain ⟨hanswers, hbehind⟩ :=
    Peripheral.follows_behind (Peripheral.follows_nil supplies hload hdata {}) requests
  simp only [List.nil_append] at hanswers hbehind
  refine ⟨hanswers, ?_, ?_, ?_⟩
  · rw [hbehind.channel]
    rfl
  · intro op
    rw [Peripheral.tally_behind]
    cases op <;> exact Nat.zero_add _
  · intro request fault hfault
    exact Peripheral.state_of_resolve_error hfault

/-- Two bytes of program, one of data and one of input. -/
def oneOfEach : Supplies :=
  ⟨#[43, 46], #[7], #[65], .fail⟩

/-- A cell is read before and behind a write, and the input is read past its end. -/
theorem answers_history_one_of_each :
    oneOfEach.program.size ≤ addressSpace ∧ oneOfEach.image.size ≤ addressSpace
      ∧ ∃ program data, Rom.load oneOfEach.program = .ok program
        ∧ Ram.load oneOfEach.image = .ok data
        ∧ (⟨program, data, .ofInput oneOfEach.input oneOfEach.policy, {}⟩ : Peripheral).answers
            [⟨.readData, 0, 0⟩, ⟨.writeData, 0, 9⟩, ⟨.readData, 0, 0⟩, ⟨.readIo, 0, 0⟩,
              ⟨.readIo, 0, 0⟩, ⟨.readProgram, 1, 0⟩]
          = [.ok 7, .ok 0, .ok 9, .ok 65, .error (.inputExhausted 1), .ok 46] := by
  have hprogram : oneOfEach.program.size ≤ addressSpace := by decide
  have himage : oneOfEach.image.size ≤ addressSpace := by decide
  obtain ⟨_, ⟨program, data, hload, hdata, rfl⟩, hhistory⟩ :=
    answers_history oneOfEach hprogram himage
  refine ⟨hprogram, himage, program, data, hload, hdata, ?_⟩
  rw [(hhistory _).1]
  decide

end TapeBench
