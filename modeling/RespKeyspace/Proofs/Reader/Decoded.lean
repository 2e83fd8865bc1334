import RespKeyspace.Proofs.Reader.Stable

/-! What a buffer holds: the complete values at its front, one after the other.
Reading in batches gives the same values, and so does a buffer that grows. -/

namespace RespKeyspace.Value

/-- The complete values at the front of a buffer, the fault behind them if there is
one, and the bytes behind the values. -/
structure Decoded where
  values : List Value
  fault? : Option FrameFault
  rest : Bytes
deriving DecidableEq

/-- Take one value after another off the front of a buffer. -/
def decoded (bytes : Bytes) : Decoded :=
  match found : read bytes with
  | .value value rest =>
    have := read_takes bytes value rest found
    let behind := decoded rest
    { behind with values := value :: behind.values }
  | .incomplete => ⟨[], none, bytes⟩
  | .malformed fault => ⟨[], some fault, bytes⟩
termination_by bytes.length

namespace Decoded

def after (earlier : List Value) (behind : Decoded) : Decoded :=
  { behind with values := earlier ++ behind.values }

def batch : Decoded → Reading FrameFault (List Value)
  | ⟨[], none, _⟩ => .incomplete
  | ⟨[], some fault, _⟩ => .malformed fault
  | ⟨value :: values, _, rest⟩ => .value (value :: values) rest

@[simp] theorem after_nil (behind : Decoded) : behind.after [] = behind := rfl

@[simp] theorem after_after (first second : List Value) (behind : Decoded) :
    (behind.after second).after first = behind.after (first ++ second) := by
  simp [after]

@[simp] theorem values_after (earlier : List Value) (behind : Decoded) :
    (behind.after earlier).values = earlier ++ behind.values := rfl

@[simp] theorem fault?_after (earlier : List Value) (behind : Decoded) :
    (behind.after earlier).fault? = behind.fault? := rfl

@[simp] theorem rest_after (earlier : List Value) (behind : Decoded) :
    (behind.after earlier).rest = behind.rest := rfl

end Decoded

variable {bytes rest : Bytes} {value : Value} {fault : FrameFault}

theorem decoded_of_value (found : read bytes = .value value rest) :
    decoded bytes = (decoded rest).after [value] := by
  rw [decoded]
  split
  · rename_i other behind same
    rw [found] at same
    cases same
    rfl
  · simp_all
  · simp_all

theorem decoded_of_incomplete (found : read bytes = .incomplete) :
    decoded bytes = ⟨[], none, bytes⟩ := by
  rw [decoded]
  split <;> simp_all

theorem decoded_of_malformed (found : read bytes = .malformed fault) :
    decoded bytes = ⟨[], some fault, bytes⟩ := by
  rw [decoded]
  split <;> simp_all

theorem read_nil : read [] = .incomplete := rfl

@[simp] theorem decoded_nil : decoded [] = ⟨[], none, []⟩ := decoded_of_incomplete read_nil

/-- Every property of what buffers hold follows along the values taken off. -/
theorem decoded_induction {property : Bytes → Prop}
    (taken : ∀ bytes value rest, read bytes = .value value rest → property rest → property bytes)
    (incomplete : ∀ bytes, read bytes = .incomplete → property bytes)
    (malformed : ∀ bytes fault, read bytes = .malformed fault → property bytes)
    (bytes : Bytes) : property bytes := by
  induction length : bytes.length using Nat.strongRecOn generalizing bytes with
  | ind count ih =>
    cases found : read bytes with
    | value value rest =>
      have shorter := read_takes bytes value rest found
      exact taken bytes value rest found (ih rest.length (by omega) rest rfl)
    | incomplete => exact incomplete bytes found
    | malformed fault => exact malformed bytes fault found

theorem decoded_rest (bytes : Bytes) :
    decoded (decoded bytes).rest = ⟨[], (decoded bytes).fault?, (decoded bytes).rest⟩ := by
  induction bytes using decoded_induction with
  | taken bytes value rest found ih => simpa [decoded_of_value found] using ih
  | incomplete bytes found => simp [decoded_of_incomplete found]
  | malformed bytes fault found => simp [decoded_of_malformed found]

/-- Bytes that arrive later continue behind the values already there. -/
theorem decoded_append (bytes more : Bytes) :
    decoded (bytes ++ more) = (decoded ((decoded bytes).rest ++ more)).after (decoded bytes).values := by
  induction bytes using decoded_induction with
  | taken bytes value rest found ih =>
    rw [decoded_of_value (read_stable.value found more), decoded_of_value found, ih]
    simp
  | incomplete bytes found => simp [decoded_of_incomplete found]
  | malformed bytes fault found => simp [decoded_of_malformed found]

theorem decoded_append_of_malformed (found : read bytes = .malformed fault) (more : Bytes) :
    decoded (bytes ++ more) = ⟨[], some fault, bytes ++ more⟩ :=
  decoded_of_malformed (read_stable.malformed found more)

theorem decoded_append_of_fault (found : (decoded bytes).fault? = some fault) (more : Bytes) :
    decoded (bytes ++ more) = ⟨(decoded bytes).values, some fault, (decoded bytes).rest ++ more⟩ := by
  induction bytes using decoded_induction with
  | taken bytes value rest read ih =>
    rw [decoded_of_value read] at found ⊢
    rw [decoded_of_value (read_stable.value read more), ih found]
    rfl
  | incomplete bytes read => simp [decoded_of_incomplete read] at found
  | malformed bytes other read =>
    rw [decoded_of_malformed read] at found ⊢
    cases found
    simpa using decoded_append_of_malformed read more

private theorem readAllAfter_eq (done : List Value) (bytes : Bytes) :
    readAllAfter done bytes = ((decoded bytes).after done.reverse).batch := by
  fun_induction readAllAfter done bytes with
  | case1 done bytes value rest found shorter ih =>
    rw [ih, decoded_of_value found]
    simp
  | case2 done bytes found none => simp_all [decoded_of_incomplete found, Decoded.after, Decoded.batch]
  | case3 done bytes found some =>
    obtain ⟨last, before, rfl⟩ := List.exists_cons_of_ne_nil (by simpa using some)
    rw [decoded_of_incomplete found]
    cases shape : (last :: before).reverse with
    | nil => simp at shape
    | cons first later => simp [Decoded.after, Decoded.batch]
  | case4 done bytes fault found none => simp_all [decoded_of_malformed found, Decoded.after, Decoded.batch]
  | case5 done bytes fault found some =>
    obtain ⟨last, before, rfl⟩ := List.exists_cons_of_ne_nil (by simpa using some)
    rw [decoded_of_malformed found]
    cases shape : (last :: before).reverse with
    | nil => simp at shape
    | cons first later => simp [Decoded.after, Decoded.batch]

/-- One reading of all complete values is told by what the buffer holds. -/
theorem readAll_eq (bytes : Bytes) : readAll bytes = (decoded bytes).batch := by
  simpa [readAll] using readAllAfter_eq [] bytes

theorem rest_of_values_nil (none : (decoded bytes).values = []) : (decoded bytes).rest = bytes := by
  cases found : read bytes with
  | value value rest => simp [decoded_of_value found] at none
  | incomplete => rw [decoded_of_incomplete found]
  | malformed fault => rw [decoded_of_malformed found]

theorem decoded_of_readAll_value {values : List Value} (found : readAll bytes = .value values rest) :
    decoded bytes = ⟨values, (decoded bytes).fault?, rest⟩ := by
  rw [readAll_eq] at found
  unfold Decoded.batch at found
  split at found
  · cases found
  · cases found
  · rename_i held
    cases found
    rw [held]

theorem decoded_of_readAll_incomplete (found : readAll bytes = .incomplete) :
    decoded bytes = ⟨[], none, bytes⟩ := by
  rw [readAll_eq] at found
  unfold Decoded.batch at found
  split at found
  · rename_i held
    have whole := rest_of_values_nil (by rw [held] : (decoded bytes).values = [])
    rw [held] at whole ⊢
    exact congrArg _ whole
  · cases found
  · cases found

theorem decoded_of_readAll_malformed (found : readAll bytes = .malformed fault) :
    decoded bytes = ⟨[], some fault, bytes⟩ := by
  rw [readAll_eq] at found
  unfold Decoded.batch at found
  split at found
  · cases found
  · rename_i held
    cases found
    have whole := rest_of_values_nil (by rw [held] : (decoded bytes).values = [])
    rw [held] at whole ⊢
    exact congrArg _ whole
  · cases found

end RespKeyspace.Value
