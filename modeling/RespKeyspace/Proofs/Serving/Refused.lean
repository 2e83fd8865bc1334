import RespKeyspace.Proofs.Serving.Turns

/-! Refused requests. A request is refused for what it says alone, and whoever sends it,
nothing is different afterwards but the offset of a link it came along. -/

namespace RespKeyspace

namespace Command

/-- What is wrong with a command, with the refusal it meets. -/
inductive Faulty : String → List Bytes → Refusal → Prop where
  | unknown {name : String} {arguments : List Bytes} (foreign : name ∉ names) :
      Faulty name arguments (.unknownCommand name)
  | echoArity {arguments : List Bytes} (count : arguments.length ≠ 1) :
      Faulty "ECHO" arguments .echoArity
  | getArity {arguments : List Bytes} (count : arguments.length ≠ 1) :
      Faulty "GET" arguments .getArity
  | setArity {arguments : List Bytes} (few : arguments.length < 2) :
      Faulty "SET" arguments .setArity
  | setSyntax {key content : Bytes} {options : List Bytes} (given : options ≠ [])
      (other : ∀ option digits, options = [option, digits] →
        AsciiCase.same option (Bytes.ofText "PX") = false) :
      Faulty "SET" (key :: content :: options) .setSyntax
  | expiryNotInteger {key content option digits : Bytes}
      (expires : AsciiCase.same option (Bytes.ofText "PX") = true)
      (unread : Decimal.signed? digits = none) :
      Faulty "SET" [key, content, option, digits] .expiryNotInteger
  | expiryNotPositive {key content option digits : Bytes} {number : Int64}
      (expires : AsciiCase.same option (Bytes.ofText "PX") = true)
      (read : Decimal.signed? digits = some number) (past : number.toInt ≤ 0) :
      Faulty "SET" [key, content, option, digits] .expiryNotPositive
  | unsupportedSection {arguments : List Bytes} (other : opensWith "REPLICATION" arguments = false) :
      Faulty "INFO" arguments .unsupportedSection

variable {name : String} {arguments : List Bytes} {refusal : Refusal}

private theorem Faulty.of_assignment (refused : assignment arguments = .error refusal) :
    Faulty "SET" arguments refusal := by
  unfold assignment at refused
  split at refused
  · cases refused
  · rename_i key content option digits
    split at refused
    · rename_i expires
      unfold lifetime at refused
      split at refused
      · rename_i unread
        cases refused
        exact .expiryNotInteger expires unread
      · rename_i number read
        split at refused
        · cases refused
        · rename_i past
          cases refused
          exact .expiryNotPositive expires read (Int.not_lt.mp past)
    · rename_i other
      cases refused
      refine .setSyntax (List.cons_ne_nil _ _) ?_
      rintro _ _ ⟨rfl, rfl⟩
      exact Bool.not_eq_true _ ▸ other
  · rename_i key content options notBare notPair
    cases refused
    refine .setSyntax ?_ ?_
    · rintro rfl
      exact notBare rfl
    · rintro option digits rfl
      exact (notPair option digits rfl).elim
  · rename_i short
    cases refused
    refine .setArity (Nat.lt_of_not_le fun enough => ?_)
    rcases arguments with _ | ⟨key, _ | ⟨content, options⟩⟩
    · exact absurd enough (by simp)
    · exact absurd enough (by simp)
    · exact short key content options rfl

private theorem Faulty.of_named (refused : named name arguments = .error refusal) :
    Faulty name arguments refusal := by
  unfold named at refused
  split at refused
  · cases refused
  · split at refused
    · cases refused
    · rename_i several
      cases refused
      refine .echoArity fun one => ?_
      obtain ⟨content, rfl⟩ := List.length_eq_one_iff.mp one
      exact several content rfl
  · split at refused
    · cases refused
    · rename_i several
      cases refused
      refine .getArity fun one => ?_
      obtain ⟨key, rfl⟩ := List.length_eq_one_iff.mp one
      exact several key rfl
  · cases checked : assignment arguments with
    | ok written => simp [checked, Except.map] at refused
    | error cause =>
      obtain rfl : cause = refusal := by simpa [checked, Except.map] using refused
      exact .of_assignment checked
  · split at refused
    · cases refused
    · rename_i other
      cases refused
      exact .unsupportedSection (Bool.not_eq_true _ ▸ other)
  · cases refused
  · cases refused
  · cases refused
    exact .unknown (by simp_all [names])

private theorem Faulty.assignment_eq {key content : Bytes} {options : List Bytes} (given : options ≠ [])
    (other : ∀ option digits, options = [option, digits] →
      AsciiCase.same option (Bytes.ofText "PX") = false) :
    assignment (key :: content :: options) = .error .setSyntax := by
  match options, given, other with
  | [option], _, _ => rfl
  | [option, digits], _, other => simp [assignment, other option digits rfl]
  | _ :: _ :: _ :: _, _, _ => rfl

private theorem Faulty.ne_notACommand (faulty : Faulty name arguments refusal) :
    refusal ≠ .notACommand := by
  cases faulty <;> simp

/-- A command is refused exactly for what is wrong with it. -/
theorem named_eq_error_iff : named name arguments = .error refusal ↔ Faulty name arguments refusal := by
  constructor
  · exact Faulty.of_named
  · intro faulty
    cases faulty with
    | unknown foreign =>
      simp only [names, List.mem_cons, List.not_mem_nil, or_false, not_or] at foreign
      simp [named, foreign]
    | echoArity count =>
      rcases arguments with _ | ⟨_, _ | ⟨_, _⟩⟩
      · rfl
      · exact (count rfl).elim
      · rfl
    | getArity count =>
      rcases arguments with _ | ⟨_, _ | ⟨_, _⟩⟩
      · rfl
      · exact (count rfl).elim
      · rfl
    | setArity few =>
      rcases arguments with _ | ⟨_, _ | ⟨_, _⟩⟩
      · rfl
      · rfl
      · exact absurd few (by simp)
    | setSyntax given other => simp [named, Faulty.assignment_eq given other, Except.map]
    | expiryNotInteger expires unread =>
      simp [named, assignment, expires, lifetime, unread, Except.map]
    | expiryNotPositive expires read past =>
      simp [named, assignment, expires, lifetime, read, Int.not_lt.mpr past, Except.map]
    | unsupportedSection other => simp [named, other]

end Command

namespace Value

/-- Why a value is refused: it is no request, or something is wrong with the command it asks for. -/
inductive Refused : Value → Refusal → Prop where
  | notACommand {value : Value} (foreign : ∀ request : Request, value ≠ request.toValue) :
      Refused value .notACommand
  | command {request : Request} {refusal : Refusal}
      (faulty : Command.Faulty request.name request.arguments refusal) :
      Refused request.toValue refusal

variable {value : Value} {refusal : Refusal}

theorem command_eq_error_iff : value.command = .error refusal ↔ value.Refused refusal := by
  constructor
  · intro refused
    unfold Value.command at refused
    split at refused
    · rename_i foreign
      cases refused
      refine .notACommand fun request same => ?_
      rw [Request.ofValue?_eq_some_iff.mpr same] at foreign
      cases foreign
    · rename_i request carried
      obtain rfl := Request.ofValue?_eq_some_iff.mp carried
      exact .command (Command.named_eq_error_iff.mp refused)
  · intro refused
    cases refused with
    | notACommand foreign =>
      unfold Value.command
      split
      · rfl
      · rename_i request carried
        exact (foreign request (Request.ofValue?_eq_some_iff.mp carried)).elim
    | command faulty =>
      rw [command_toValue]
      exact Command.named_eq_error_iff.mpr faulty

private theorem Refused.isRequest_iff (refused : value.Refused refusal) :
    value.isRequest = true ↔ refusal ≠ .notACommand := by
  cases refused with
  | notACommand foreign =>
    cases carried : Request.ofValue? value with
    | none => simp [isRequest, carried]
    | some request => exact (foreign request (Request.ofValue?_eq_some_iff.mp carried)).elim
  | @command request _ faulty =>
    simp [isRequest, Request.ofValue?_eq_some_iff.mpr rfl, faulty.ne_notACommand]

end Value

namespace Server

variable (server : Server) (now : Nat) (value : Value)

theorem serve_eq_error_iff {refusal : Refusal} :
    (server.serve now value).1 = .error refusal ↔ value.Refused refusal := by
  rw [serve_eq, ← Value.command_eq_error_iff]
  cases value.command <;> simp

theorem follow_eq_error_iff {refusal : Refusal} :
    (server.follow now value).1 = .error refusal ↔ value.Refused refusal := by
  rw [← Value.command_eq_error_iff]
  cases asked : value.command with
  | ok command => simp [follow_of_ok asked]
  | error cause => simp [follow_of_error asked]

theorem serve_of_refused {refusal : Refusal} (refused : value.Refused refusal) :
    (server.serve now value).2 = server := by
  rw [serve_eq, Value.command_eq_error_iff.mpr refused]

theorem follow_of_refused {refusal : Refusal} (refused : value.Refused refusal) :
    (server.follow now value).2 = if refusal = .notACommand then server else server.advance value := by
  rw [follow_of_error (Value.command_eq_error_iff.mpr refused)]
  by_cases asked : value.isRequest = true
  · rw [if_pos asked, if_neg (refused.isRequest_iff.mp asked)]
  · rw [if_neg asked, if_pos (Decidable.not_not.mp fun other => asked (refused.isRequest_iff.mpr other))]

/-- Whatever a server holds, a request is refused exactly for what is wrong with it, by a client's
server and on the link of a replica alike. Nothing is changed by it: no entry of the keys, expired
or not, no record of a replica, no queue, neither the offset nor the replication id. On the link
alone its length is counted, once, unless the value was no request at all. -/
theorem refused_request_changes_nothing (server : Server) (now : Nat) (value : Value)
    (refusal : Refusal) :
    ((server.serve now value).1 = .error refusal ↔ value.Refused refusal) ∧
      ((server.follow now value).1 = .error refusal ↔ value.Refused refusal) ∧
      (value.Refused refusal →
        (server.serve now value).2 = server ∧
          (server.follow now value).2 =
            if refusal = .notACommand then server
            else { server with offset := server.offset + frameLength value }) :=
  ⟨server.serve_eq_error_iff now value, server.follow_eq_error_iff now value, fun refused =>
    ⟨server.serve_of_refused now value refused, server.follow_of_refused now value refused⟩⟩

/-- A lifetime of zero is refused: by a primary that holds an expired entry, feeds one replica and
records another that is gone, and by a replica that it reaches along its link. -/
theorem lifetime_of_zero_changes_nothing :
    let primary : Server :=
      { role := .primary ((Table.empty.insert "fed" 0).insert "gone" 1)
        replicationId := "id"
        offset := 27
        keys := Keyspace.empty.set 0 (Bytes.ofText "k") (Bytes.ofText "v") (some 5)
        outboxes := Outboxes.none.create.create.update 1 Outbox.close }
    let replica : Server := { primary with role := .replica ⟨"host", 6379⟩ }
    let value := Value.ofWords ["SET", "k", "w", "PX", "0"]
    value.Refused .expiryNotPositive ∧
      (primary.serve 10 value).1 = .error .expiryNotPositive ∧ (primary.serve 10 value).2 = primary ∧
      (replica.follow 10 value).2 = { replica with offset := 69 } := by
  intro primary replica value
  have faulty : Command.Faulty "SET" (["k", "w", "PX", "0"].map Bytes.ofText) .expiryNotPositive :=
    .expiryNotPositive (by decide) (by decide : Decimal.signed? (Bytes.ofText "0") = some 0)
      (by decide)
  have asked : value.command = _ := Value.command_ofParts _ (by decide)
  have refused : value.Refused .expiryNotPositive :=
    Value.command_eq_error_iff.mp (asked.trans (Command.named_eq_error_iff.mpr faulty))
  obtain ⟨served, _, primaryKept⟩ := refused_request_changes_nothing primary 10 value .expiryNotPositive
  obtain ⟨_, _, replicaKept⟩ := refused_request_changes_nothing replica 10 value .expiryNotPositive
  have counted : replica.offset + frameLength value = 69 := by decide +kernel
  have followed := (replicaKept refused).2
  rw [if_neg (by decide), counted] at followed
  exact ⟨refused, served.mpr refused, (primaryKept refused).1, followed⟩

end Server

end RespKeyspace
