import RespKeyspace.Incoming
import RespKeyspace.Session
import RespKeyspace.Proofs.Reader.Decoded

/-! Bytes arrive in chunks of any size. However they are cut, the readers of a
stream give the values that the whole stream holds. -/

namespace RespKeyspace

/-- A way for bytes to arrive: in chunks, none of them empty. -/
structure Arrival (bytes : Bytes) where
  chunks : List Bytes
  nonempty : ∀ chunk ∈ chunks, chunk ≠ []
  whole : chunks.flatten = bytes

def Arrival.atOnce (bytes : Bytes) : Arrival bytes where
  chunks := if bytes = [] then [] else [bytes]
  nonempty := by
    intro chunk member
    split at member
    · cases member
    · rename_i some
      exact List.mem_singleton.mp member ▸ some
  whole := by
    split
    · rename_i none
      exact none.symm
    · simp

namespace Incoming

variable {Fault Content : Type} {examine : Bytes → Reading Fault Content} {blame : Fault → ReadFault}

/-- All bytes of a stream that were not used yet. -/
def bytes (input : Incoming) : Bytes := input.buffer ++ input.chunks.flatten

def ofArrival {bytes : Bytes} (arrival : Arrival bytes) (failure : Option String) : Incoming :=
  ⟨[], arrival.chunks, failure⟩

@[simp] theorem bytes_ofArrival {bytes : Bytes} (arrival : Arrival bytes)
    (failure : Option String) : (ofArrival arrival failure).bytes = bytes := by
  simp [Incoming.bytes, ofArrival, arrival.whole]

private theorem awaitFrom_takes
    (takes : ∀ buffer value rest, examine buffer = .value value rest → rest.length < buffer.length)
    {failure : Option String} {buffer : Bytes} {chunks : List Bytes} {value : Content}
    {later : Incoming}
    (found : awaitFrom examine blame failure buffer chunks = (.ok value, later)) :
    later.bytes.length < (buffer ++ chunks.flatten).length := by
  fun_induction awaitFrom examine blame failure buffer chunks with
  | case1 chunks buffer value rest read =>
    cases found
    have shorter := takes buffer _ rest read
    simp [bytes]
    omega
  | case2 => cases found
  | case3 => cases found
  | case4 => cases found
  | case5 buffer read chunk later filled ih => simpa using ih found

private theorem readAll_takes {input later : Incoming} {values : List Value}
    (found : input.readAll = (.ok values, later)) : later.bytes.length < input.bytes.length :=
  awaitFrom_takes (fun _ _ _ => Value.readAll_takes) found

/-- A stream that fails as `failure` tells once it has delivered all of `bytes`. -/
structure Delivers (input : Incoming) (bytes : Bytes) (failure : Option String) : Prop where
  whole : input.bytes = bytes
  nonempty : ∀ chunk ∈ input.chunks, chunk ≠ []
  ends : input.failure = failure

/-- What is at the front of a whole stream is read off the stream, however it arrives. -/
theorem await_of_value (stable : Stable examine) {input : Incoming} {bytes rest : Bytes}
    {failure : Option String} {value : Content} (delivers : input.Delivers bytes failure)
    (found : examine bytes = .value value rest) :
    ∃ later, input.await examine blame = (.ok value, later) ∧ later.Delivers rest failure := by
  obtain ⟨buffer, chunks, ending⟩ := input
  obtain ⟨whole, nonempty, rfl⟩ := delivers
  dsimp only [Incoming.bytes, await] at whole nonempty ⊢
  subst whole
  revert nonempty found
  fun_induction awaitFrom examine blame ending buffer chunks with
  | case1 chunks buffer first behind read =>
    intro nonempty found
    rw [stable.value read chunks.flatten] at found
    cases found
    exact ⟨_, rfl, rfl, nonempty, rfl⟩
  | case2 chunks buffer fault read =>
    intro _ found
    rw [stable.malformed read chunks.flatten] at found
    cases found
  | case3 buffer read =>
    intro _ found
    simp [read] at found
  | case4 buffer read later =>
    intro nonempty _
    exact (nonempty [] (by simp) rfl).elim
  | case5 buffer read chunk later filled ih =>
    intro nonempty found
    refine ih ?_ (by simpa using found)
    intro other member
    exact nonempty other (by simp [member])

theorem await_of_malformed (stable : Stable examine) {input : Incoming} {bytes : Bytes}
    {failure : Option String} {fault : Fault} (delivers : input.Delivers bytes failure)
    (found : examine bytes = .malformed fault) :
    (input.await examine blame).1 = .error (blame fault) := by
  obtain ⟨buffer, chunks, ending⟩ := input
  obtain ⟨whole, nonempty, rfl⟩ := delivers
  dsimp only [Incoming.bytes, await] at whole nonempty ⊢
  subst whole
  revert nonempty found
  fun_induction awaitFrom examine blame ending buffer chunks with
  | case1 chunks buffer first behind read =>
    intro _ found
    rw [stable.value read chunks.flatten] at found
    cases found
  | case2 chunks buffer fault read =>
    intro _ found
    rw [stable.malformed read chunks.flatten] at found
    cases found
    rfl
  | case3 buffer read =>
    intro _ found
    simp [read] at found
  | case4 buffer read later =>
    intro nonempty _
    exact (nonempty [] (by simp) rfl).elim
  | case5 buffer read chunk later filled ih =>
    intro nonempty found
    refine ih ?_ (by simpa using found)
    intro other member
    exact nonempty other (by simp [member])

/-- What reading batches until a read fails comes to: all values, the failure, and
what is left of the stream. -/
structure Drained where
  values : List Value
  fault : ReadFault
  left : Incoming

/-- What a peer can tell: the values, the failure, and the bytes left. -/
def Drained.seen (drained : Drained) : List Value × ReadFault × Bytes :=
  (drained.values, drained.fault, drained.left.bytes)

/-- Read batch after batch until a read fails. -/
def drain (input : Incoming) : Drained :=
  match found : input.readAll with
  | (.error fault, left) => ⟨[], fault, left⟩
  | (.ok values, later) =>
    have := readAll_takes found
    let behind := later.drain
    { behind with values := values ++ behind.values }
termination_by input.bytes.length

def lastFault (fault? : Option FrameFault) (failure : Option String) : ReadFault :=
  match fault? with
  | some fault => .frame fault
  | none => ending failure

private theorem awaitFrom_readAll_cases (failure : Option String) (buffer : Bytes) {chunks : List Bytes}
    (nonempty : ∀ chunk ∈ chunks, chunk ≠ []) :
    (∃ values later, awaitFrom Value.readAll .frame failure buffer chunks = (.ok values, later) ∧
      Value.decoded (buffer ++ chunks.flatten) = (Value.decoded later.bytes).after values ∧
      later.failure = failure ∧ ∀ chunk ∈ later.chunks, chunk ≠ []) ∨
    ∃ fault? left, awaitFrom Value.readAll .frame failure buffer chunks =
        (.error (lastFault fault? failure), left) ∧
      left.bytes = buffer ++ chunks.flatten ∧
      Value.decoded (buffer ++ chunks.flatten) = ⟨[], fault?, buffer ++ chunks.flatten⟩ := by
  revert nonempty
  fun_induction awaitFrom Value.readAll ReadFault.frame failure buffer chunks with
  | case1 chunks buffer values rest read =>
    intro nonempty
    have held := Value.decoded_of_readAll_value read
    refine .inl ⟨values, _, rfl, ?_, rfl, nonempty⟩
    rw [Value.decoded_append, held]
    rfl
  | case2 chunks buffer fault read =>
    intro nonempty
    have held := Value.decoded_of_readAll_malformed read
    refine .inr ⟨some fault, _, rfl, rfl, ?_⟩
    rw [Value.decoded_append_of_fault (by rw [held] : _ = some fault), held]
  | case3 buffer read =>
    intro nonempty
    have held := Value.decoded_of_readAll_incomplete read
    exact .inr ⟨none, _, rfl, rfl, by simpa using held⟩
  | case4 buffer read later =>
    intro nonempty
    exact (nonempty [] (by simp) rfl).elim
  | case5 buffer read chunk later filled ih =>
    intro nonempty
    have rest : ∀ chunk ∈ later, chunk ≠ [] := fun chunk member => nonempty chunk (by simp [member])
    simpa using ih rest

private theorem drain_of_ok {input later : Incoming} {values : List Value}
    (found : input.readAll = (.ok values, later)) :
    input.drain = { later.drain with values := values ++ later.drain.values } := by
  rw [drain]
  split <;> simp_all

private theorem drain_of_error {input left : Incoming} {fault : ReadFault}
    (found : input.readAll = (.error fault, left)) : input.drain = ⟨[], fault, left⟩ := by
  rw [drain]
  split <;> simp_all

/-- Batches give the values that the whole stream holds, then the fault behind them
or else the end of the stream, and leave what lies behind the values. -/
theorem drain_seen (input : Incoming) (nonempty : ∀ chunk ∈ input.chunks, chunk ≠ []) :
    input.drain.seen =
      ((Value.decoded input.bytes).values,
        lastFault (Value.decoded input.bytes).fault? input.failure,
        (Value.decoded input.bytes).rest) := by
  induction length : input.bytes.length using Nat.strongRecOn generalizing input with
  | ind count ih =>
    rcases awaitFrom_readAll_cases input.failure input.buffer nonempty with
      ⟨values, later, found, held, failure, still⟩ | ⟨fault?, left, found, kept, held⟩
    · have shorter := readAll_takes found
      have behind := ih _ (by omega) later still rfl
      simp only [Drained.seen, Prod.mk.injEq] at behind
      rw [drain_of_ok found, bytes, held]
      simp [Drained.seen, behind, failure]
    · rw [drain_of_error found, bytes, held]
      simp [Drained.seen, kept]

end Incoming

namespace Reading

variable {Fault Item : Type}

def values : Reading Fault (List Item) → List Item
  | .value values _ => values
  | _ => []

end Reading

namespace Value

/-- Append one chunk after another to what was left over before, and read all complete
values each time: what each reading comes to, and what is left over at last. -/
def readArriving (buffer : Bytes) :
    List Bytes → List (Reading FrameFault (List Value)) × Bytes
  | [] => ([], buffer)
  | chunk :: later =>
    let reading := readAll (buffer ++ chunk)
    let behind := readArriving (reading.rest (buffer ++ chunk)) later
    (reading :: behind.1, behind.2)

private theorem readAll_values (bytes : Bytes) : (readAll bytes).values = (decoded bytes).values := by
  cases read : readAll bytes with
  | value values rest => rw [decoded_of_readAll_value read]; rfl
  | incomplete => rw [decoded_of_readAll_incomplete read]; rfl
  | malformed fault => rw [decoded_of_readAll_malformed read]; rfl

private theorem readAll_rest (bytes : Bytes) : (readAll bytes).rest bytes = (decoded bytes).rest := by
  cases read : readAll bytes with
  | value values rest => rw [decoded_of_readAll_value read]; rfl
  | incomplete => rw [decoded_of_readAll_incomplete read]; rfl
  | malformed fault => rw [decoded_of_readAll_malformed read]; rfl

/-- Readings of a growing buffer give each value once, at the chunk that ends it. -/
theorem readArriving_eq {buffer : Bytes} (chunks : List Bytes)
    (empty : (decoded buffer).values = []) :
    (readArriving buffer chunks).1.flatMap Reading.values =
        (decoded (buffer ++ chunks.flatten)).values ∧
      (readArriving buffer chunks).2 = (decoded (buffer ++ chunks.flatten)).rest := by
  induction chunks generalizing buffer with
  | nil => simp [readArriving, empty, rest_of_values_nil empty]
  | cons chunk later ih =>
    have taken : (decoded (decoded (buffer ++ chunk)).rest).values = [] := by rw [decoded_rest]
    obtain ⟨values, rest⟩ := ih taken
    rw [List.flatten_cons, ← List.append_assoc, decoded_append (buffer ++ chunk)]
    simp only [readArriving, readAll_rest, List.flatMap_cons, readAll_values, values, rest]
    exact ⟨rfl, rfl⟩

private theorem readArriving_of_malformed {buffer : Bytes} {fault : FrameFault} (chunks : List Bytes)
    (found : read buffer = .malformed fault) :
    (readArriving buffer chunks).1 = chunks.map fun _ => .malformed fault := by
  induction chunks generalizing buffer with
  | nil => rfl
  | cons chunk later ih =>
    have still := read_stable.malformed found chunk
    have reading : readAll (buffer ++ chunk) = .malformed fault := by
      rw [readAll_eq, decoded_of_malformed still]
      rfl
    simp only [readArriving, reading, List.map_cons]
    exact congrArg _ (ih still)

/-- What a reader has decided stands whatever follows, and a reader that gives no value
takes nothing. So the values of a stream, its fault and what is left of it do not depend
on how its bytes arrive, and a growing buffer gives each value once and then reports the
same fault forever. -/
theorem reading_ignores_arrival :
    (∀ buffer value rest, read buffer = .value value rest → ∃ taken, buffer = taken ++ rest ∧
      ∀ more, read (buffer ++ more) = .value value (rest ++ more)) ∧
    (∀ buffer fault, read buffer = .malformed fault →
      ∀ more, read (buffer ++ more) = .malformed fault) ∧
    (∀ buffer, (∀ value rest, read buffer ≠ .value value rest) →
      (read buffer).rest buffer = buffer) ∧
    (∀ bytes (first second : Arrival bytes) failure,
      (Incoming.ofArrival first failure).drain.seen = (Incoming.ofArrival second failure).drain.seen ∧
        (Incoming.ofArrival first failure).drain.seen =
          ((decoded bytes).values, Incoming.lastFault (decoded bytes).fault? failure,
            (decoded bytes).rest)) ∧
    (∀ chunks, (readArriving [] chunks).1.flatMap Reading.values = (decoded chunks.flatten).values ∧
      (readArriving [] chunks).2 = (decoded chunks.flatten).rest) ∧
    ∀ buffer fault chunks, read buffer = .malformed fault →
      (readArriving buffer chunks).1 = chunks.map fun _ => .malformed fault := by
  refine ⟨?_, ?_, ?_, ?_, ?_, ?_⟩
  · intro buffer value rest found
    obtain ⟨taken, same⟩ := read_stable.suffix found
    exact ⟨taken, same.symm, read_stable.value found⟩
  · intro buffer fault found
    exact read_stable.malformed found
  · intro buffer undecided
    cases found : read buffer with
    | value value rest => exact (undecided value rest found).elim
    | incomplete => rfl
    | malformed fault => rfl
  · intro bytes first second failure
    have one := Incoming.drain_seen (.ofArrival first failure) first.nonempty
    have other := Incoming.drain_seen (.ofArrival second failure) second.nonempty
    rw [Incoming.bytes_ofArrival] at one other
    exact ⟨one.trans other.symm, one⟩
  · intro chunks
    simpa using readArriving_eq chunks (by simp : (decoded []).values = [])
  · intro buffer fault chunks found
    exact readArriving_of_malformed chunks found

end Value

end RespKeyspace
