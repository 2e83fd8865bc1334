import RespKeyspace.Proofs.Reader.Arrival
import RespKeyspace.Proofs.Reader.Spelling

/-! Waiting for a value on a stream. A chunk is taken only as long as the buffer decides
nothing, and no byte is dropped, whether or not a value comes. -/

namespace RespKeyspace

namespace Incoming

variable {Fault Content : Type} {examine : Bytes → Reading Fault Content} {blame : Fault → ReadFault}

/-- Why no value comes: the buffer holds what is none, or it decides nothing and no further
chunk is there, or the last chunk taken was empty. -/
inductive Stalled (examine : Bytes → Reading Fault Content) (blame : Fault → ReadFault)
    (taken : List Bytes) (left : Incoming) : ReadFault → Prop where
  | malformed {fault} (found : examine left.buffer = .malformed fault) :
      Stalled examine blame taken left (blame fault)
  | ended (undecided : examine left.buffer = .incomplete) (all : left.chunks = []) :
      Stalled examine blame taken left (ending left.failure)
  | closed (undecided : examine left.buffer = .incomplete) (empty : [[]] <:+ taken) :
      Stalled examine blame taken left .closed

/-- How waiting for a value ends once some chunks are taken. -/
structure Awaited (examine : Bytes → Reading Fault Content) (blame : Fault → ReadFault)
    (input : Incoming) (taken : List Bytes) (result : Except ReadFault Content) (left : Incoming) :
    Prop where
  chunks : input.chunks = taken ++ left.chunks
  failure : left.failure = input.failure
  undecided : ∀ front chunk, front ++ [chunk] <+: taken →
    examine (input.buffer ++ front.flatten) = .incomplete
  given : ∀ content, result = .ok content →
    examine (input.buffer ++ taken.flatten) = .value content left.buffer
  refused : ∀ fault, result = .error fault →
    left.buffer = input.buffer ++ taken.flatten ∧ Stalled examine blame taken left fault

theorem Stalled.append {taken : List Bytes} {left : Incoming} {fault : ReadFault}
    (stalled : Stalled examine blame taken left fault) (earlier : List Bytes) :
    Stalled examine blame (earlier ++ taken) left fault := by
  cases stalled with
  | malformed found => exact .malformed found
  | ended undecided all => exact .ended undecided all
  | closed undecided empty => exact .closed undecided (empty.trans (List.suffix_append earlier taken))

private theorem awaitFrom_awaited (failure : Option String) (buffer : Bytes) (chunks : List Bytes) :
    ∃ taken, Awaited examine blame ⟨buffer, chunks, failure⟩ taken
      (awaitFrom examine blame failure buffer chunks).1
      (awaitFrom examine blame failure buffer chunks).2 := by
  fun_induction awaitFrom examine blame failure buffer chunks with
  | case1 chunks buffer value rest read =>
    refine ⟨[], by simp, rfl, by simp, ?_, by simp⟩
    intro content given
    cases given
    simpa using read
  | case2 chunks buffer fault read =>
    refine ⟨[], by simp, rfl, by simp, by simp, ?_⟩
    intro other refused
    cases refused
    exact ⟨by simp, .malformed read⟩
  | case3 buffer read =>
    refine ⟨[], by simp, rfl, by simp, by simp, ?_⟩
    intro other refused
    cases refused
    exact ⟨by simp, .ended read rfl⟩
  | case4 buffer read later =>
    refine ⟨[[]], by simp, rfl, ?_, by simp, ?_⟩
    · intro front chunk before
      have none : front = [] := by simpa using before.length_le
      simpa [none] using read
    · intro other refused
      cases refused
      exact ⟨by simp, .closed read List.suffix_rfl⟩
  | case5 buffer read chunk later filled ih =>
    obtain ⟨taken, awaited⟩ := ih
    refine ⟨chunk :: taken, ?_, awaited.failure, ?_, ?_, ?_⟩
    · exact congrArg (chunk :: ·) awaited.chunks
    · intro front next before
      cases front with
      | nil => simpa using read
      | cons first front =>
        obtain ⟨rfl, inside⟩ := List.cons_prefix_cons.mp before
        simpa using awaited.undecided front next inside
    · intro content given
      simpa using awaited.given content given
    · intro fault refused
      obtain ⟨kept, stalled⟩ := awaited.refused fault refused
      exact ⟨by simpa using kept, stalled.append [chunk]⟩

/-- Waiting takes chunks only as long as it has to, and loses none of their bytes. -/
theorem await_awaited (input : Incoming) (examine : Bytes → Reading Fault Content)
    (blame : Fault → ReadFault) :
    ∃ taken, Awaited examine blame input taken (input.await examine blame).1
      (input.await examine blame).2 :=
  awaitFrom_awaited input.failure input.buffer input.chunks

end Incoming

namespace Value

/-- Bytes that hold some values at the front, and `rest` behind them. -/
def Holds (bytes : Bytes) (values : List Value) (rest : Bytes) : Prop :=
  ∃ frames : List (Value × Bytes), frames.map Prod.fst = values ∧
    (∀ frame ∈ frames, read frame.2 = .value frame.1 []) ∧ bytes = frames.flatMap Prod.snd ++ rest

variable {bytes rest : Bytes} {values : List Value}

theorem holds_nil (bytes : Bytes) : Holds bytes [] bytes := ⟨[], rfl, by simp, rfl⟩

theorem Holds.append (holds : Holds bytes values rest) (more : Bytes) :
    Holds (bytes ++ more) values (rest ++ more) := by
  obtain ⟨frames, same, each, rfl⟩ := holds
  exact ⟨frames, same, each, List.append_assoc _ _ _⟩

theorem Holds.concat (holds : Holds bytes values rest) {value : Value} {later : Bytes}
    (found : read rest = .value value later) : Holds bytes (values ++ [value]) later := by
  obtain ⟨frames, same, each, rfl⟩ := holds
  obtain ⟨form, rfl, exact⟩ := exists_form_of_read found
  refine ⟨frames ++ [(value, form)], by simp [same], ?_, by simp⟩
  intro frame member
  rcases List.mem_append.mp member with earlier | last
  · exact each frame earlier
  · obtain rfl := List.mem_singleton.mp last
    exact exact

end Value

end RespKeyspace
