import RespKeyspace.Server.Execution
import RespKeyspace.Proofs.Feeding.Registry

/-! What a request can do to a server. Only an accepted SET reaches beyond the keys,
and whether a SET is accepted lies in the request alone. -/

namespace RespKeyspace

namespace Command

theorem named_set_iff {name : String} {arguments : List Bytes} {written : Assignment} :
    named name arguments = .ok (.set written) ↔ name = "SET" ∧ assignment arguments = .ok written := by
  unfold named
  split
  · simp
  · split <;> simp
  · split <;> simp
  · cases assignment arguments <;> simp [Except.map]
  · split <;> simp
  · simp
  · simp
  · simp_all

theorem assignment_eq_ok_iff {arguments : List Bytes} {written : Assignment} :
    assignment arguments = .ok written ↔
      arguments = [written.key, written.content] ∧ written.lifetime = none ∨
      ∃ option digits milliseconds, arguments = [written.key, written.content, option, digits] ∧
        AsciiCase.same option (Bytes.ofText "PX") = true ∧ lifetime digits = .ok milliseconds ∧
        written.lifetime = some milliseconds := by
  constructor
  · intro found
    unfold assignment at found
    split at found
    · cases found
      exact .inl ⟨rfl, rfl⟩
    · rename_i key content option digits
      split at found
      · rename_i same
        cases read : lifetime digits with
        | error refusal => simp [read, Except.map] at found
        | ok milliseconds =>
          obtain rfl : ⟨key, content, some milliseconds⟩ = written := by
            simpa [read, Except.map] using found
          exact .inr ⟨option, digits, milliseconds, rfl, same, read, rfl⟩
      · cases found
    · cases found
    · cases found
  · obtain ⟨key, content, lifetime⟩ := written
    rintro (⟨rfl, rfl⟩ | ⟨option, digits, milliseconds, rfl, same, read, rfl⟩)
    · rfl
    · simp [assignment, same, read, Except.map]

end Command

namespace Value

/-- The command that a value asks for, or why it is refused. -/
def command (value : Value) : Except Refusal Command :=
  match Request.ofValue? value with
  | none => .error .notACommand
  | some request => Command.ofRequest request

theorem command_toValue (request : Request) : request.toValue.command = Command.ofRequest request := by
  simp only [command, Request.ofValue?_eq_some_iff.mpr rfl]

theorem command_eq_ok_iff {value : Value} {command : Command} :
    value.command = .ok command ↔
      ∃ request, value = Request.toValue request ∧ Command.ofRequest request = .ok command := by
  constructor
  · intro accepted
    unfold Value.command at accepted
    split at accepted
    · cases accepted
    · rename_i request carried
      exact ⟨request, Request.ofValue?_eq_some_iff.mp carried, accepted⟩
  · rintro ⟨request, rfl, accepted⟩
    rw [command_toValue, accepted]

theorem command_ofParts {word : String} (arguments : List Bytes)
    (same : Text.uppercase (Utf8.decodeLossy (Bytes.ofText word)) = word) :
    (ofParts (Bytes.ofText word :: arguments)).command = Command.named word arguments := by
  have asked := command_toValue ⟨Bytes.ofText word, arguments⟩
  rwa [Command.ofRequest, Request.name, same] at asked

/-- What an accepted SET assigns. -/
def write? (value : Value) : Option Assignment :=
  match value.command with
  | .ok (.set assignment) => some assignment
  | _ => none

/-- Whether a value ends the connection it arrives on. -/
def isFatal (value : Value) : Bool :=
  match value.command with
  | .ok _ => false
  | .error refusal => refusal.isFatal

theorem write?_eq_some_iff {value : Value} {assignment : Assignment} :
    value.write? = some assignment ↔ value.command = .ok (.set assignment) := by
  unfold write?
  split
  · rename_i found
    simp [found]
  · rename_i other
    constructor
    · intro absurd
      cases absurd
    · intro found
      exact (other assignment found).elim

theorem write?_of_error {value : Value} {refusal : Refusal} (refused : value.command = .error refusal) :
    value.write? = none := by
  simp [write?, refused]

theorem write?_of_ok {value : Value} {command : Command} (accepted : value.command = .ok command)
    (other : ∀ assignment, command ≠ .set assignment) : value.write? = none := by
  cases command with
  | set assignment => exact (other assignment rfl).elim
  | _ => simp [write?, accepted]

end Value

namespace Server

variable (server : Server) (now : Nat) (value : Value)

/-- A request is executed as the command it asks for, or refused with the server as it was. -/
theorem serve_eq :
    server.serve now value =
      match value.command with
      | .error refusal => (.error refusal, server)
      | .ok command => (.ok (server.perform now command).1, (server.perform now command).2) := by
  unfold serve Value.command
  cases Request.ofValue? value with
  | none => rfl
  | some request =>
    cases asked : Command.ofRequest request with
    | error refusal => simp only [execute, asked]
    | ok command => simp only [execute, asked]

theorem perform_of_not_set {command : Command} (other : ∀ assignment, command ≠ .set assignment) :
    ∃ keys, (server.perform now command).2 = { server with keys } := by
  cases command with
  | get key => exact ⟨_, rfl⟩
  | set assignment => exact (other assignment rfl).elim
  | _ => exact ⟨server.keys, rfl⟩

/-- All that a request can do: an accepted SET is assigned, and anything else changes
the keys at most. -/
theorem serve_cases :
    (∃ assignment, value.write? = some assignment ∧
      server.serve now value = (.ok (.reply (.simple "OK")), server.assign now assignment)) ∨
    value.write? = none ∧ ∃ keys, (server.serve now value).2 = { server with keys } := by
  rw [serve_eq]
  cases asked : value.command with
  | error refusal => exact .inr ⟨Value.write?_of_error asked, server.keys, rfl⟩
  | ok command =>
    by_cases isSet : ∃ assignment, command = .set assignment
    · obtain ⟨assignment, rfl⟩ := isSet
      exact .inl ⟨assignment, Value.write?_eq_some_iff.mpr asked, rfl⟩
    · have other : ∀ assignment, command ≠ .set assignment := fun assignment same =>
        isSet ⟨assignment, same⟩
      exact .inr ⟨Value.write?_of_ok asked other, server.perform_of_not_set now other⟩

variable (assignment : Assignment) (address : String) (box : OutboxId)

@[simp] theorem isPrimary_assign :
    (server.assign now assignment).role.isPrimary = server.role.isPrimary :=
  isPrimary_propagate _ _

theorem replica?_assign :
    (server.assign now assignment).replica? address =
      (server.replica? address).filter fun box => server.outboxes.isOpen box :=
  replica?_propagate _ _ _

@[simp] theorem keys_assign :
    (server.assign now assignment).keys =
      server.keys.set now assignment.key assignment.content assignment.lifetime :=
  keys_propagate _ _

@[simp] theorem next_assign : (server.assign now assignment).outboxes.next = server.outboxes.next :=
  next_propagate _ _

@[simp] theorem isOpen_assign :
    (server.assign now assignment).outboxes.isOpen box = server.outboxes.isOpen box :=
  isOpen_propagate _ _ _

theorem frames_assign :
    (server.assign now assignment).outboxes.frames box =
      server.outboxes.frames box ++
        if server.outboxes.isOpen box = true then
          List.replicate (server.places box) (.value assignment.toValue)
        else [] :=
  frames_propagate _ _ _

theorem offset_assign_of_live (live : server.HasLiveReplica) :
    (server.assign now assignment).offset = server.offset + frameLength assignment.toValue :=
  offset_propagate_of_live { server with keys := _ } _ live

theorem offset_assign_of_not_live (dead : ¬ server.HasLiveReplica) :
    (server.assign now assignment).offset = server.offset :=
  offset_propagate_of_not_live { server with keys := _ } _ dead

end Server

end RespKeyspace
