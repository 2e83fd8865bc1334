import RespKeyspace.Proofs.Link.Following

/-! A replica's link, accounted for value by value: what is processed of all that arrives,
what it does to the offset and to the keys, and what is written back. -/

namespace RespKeyspace

namespace Command

def names : List String := ["PING", "ECHO", "GET", "SET", "INFO", "REPLCONF", "PSYNC"]

theorem not_isFatal_of_assignment {arguments : List Bytes} {refusal : Refusal}
    (refused : assignment arguments = .error refusal) : refusal.isFatal = false := by
  unfold assignment at refused
  split at refused
  · cases refused
  · split at refused
    · rename_i digits _
      unfold lifetime at refused
      split at refused
      · cases refused
        rfl
      · split at refused
        · cases refused
        · cases refused
          rfl
    · cases refused
      rfl
  · cases refused
    rfl
  · cases refused
    rfl

private theorem named_fatal_iff (name : String) (arguments : List Bytes) :
    (∃ refusal, named name arguments = .error refusal ∧ refusal.isFatal = true) ↔ name ∉ names := by
  unfold named
  split
  · simp [names]
  · split <;> simp [names, Refusal.isFatal]
  · split <;> simp [names, Refusal.isFatal]
  · cases checked : assignment arguments with
    | ok assignment => simp [names, Except.map]
    | error refusal => simp [names, Except.map, not_isFatal_of_assignment checked]
  · split <;> simp [names, Refusal.isFatal]
  · simp [names]
  · simp [names]
  · simp_all [names, Refusal.isFatal]

private theorem named_replconf_iff (name : String) (arguments : List Bytes) :
    named name arguments = .ok (.replconf true) ↔
      name = "REPLCONF" ∧ opensWith "GETACK" arguments = true := by
  unfold named
  split
  · simp
  · split <;> simp
  · split <;> simp
  · cases assignment arguments <;> simp [Except.map]
  · split <;> simp
  · simp
  · simp
  · simp_all

end Command

namespace Value

/-- Whether a value is a request: a non-empty array of bulk strings. -/
def isRequest (value : Value) : Bool := (Request.ofValue? value).isSome

def isUnknown (value : Value) : Bool :=
  match Request.ofValue? value with
  | some request => !Command.names.contains request.name
  | none => false

/-- REPLCONF with the first argument GETACK in any ASCII case. -/
def asksOffset (value : Value) : Bool :=
  match Request.ofValue? value with
  | some request => request.name == "REPLCONF" && Command.opensWith "GETACK" request.arguments
  | none => false

/-- The values that a replica processes: requests up to an unknown one, and nothing from a
value on that is no request. -/
def processed : List Value → List Value
  | [] => []
  | value :: rest =>
    if value.isRequest then
      if value.isUnknown then [value] else value :: processed rest
    else []

/-- What keeps a link open: requests alone, all of them under names that commands have, and
behind them no bytes that are no value. -/
def Decoded.Proceeds (held : Decoded) : Prop :=
  held.fault? = none ∧ ∀ value ∈ held.values, value.isRequest = true ∧ value.isUnknown = false

instance (held : Decoded) : Decidable held.Proceeds := inferInstanceAs (Decidable (_ ∧ _))

/-- What a value does to keys: an accepted SET stores, and an accepted GET removes what has
expired. -/
def apply (now : Nat) (keys : Keyspace) (value : Value) : Keyspace :=
  match value.command with
  | .ok (.set assignment) => keys.set now assignment.key assignment.content assignment.lifetime
  | .ok (.get key) => (keys.get now key).2
  | _ => keys

/-- The length of values as offsets count it. -/
def counted : List Value → UInt64
  | [] => 0
  | value :: rest => Server.frameLength value + counted rest

def acknowledge (offset : UInt64) : Value := ofWords ["REPLCONF", "ACK", toString offset.toNat]

/-- What is written back for values processed from `offset` on: each request for the offset
is told what was counted before it. -/
def acknowledgements (offset : UInt64) (values : List Value) : List Value :=
  values.zipIdx.filterMap fun (value, place) =>
    if value.asksOffset then some (acknowledge (offset + counted (values.take place))) else none

theorem acknowledgements_cons (offset : UInt64) (value : Value) (rest : List Value) :
    acknowledgements offset (value :: rest) =
      (if value.asksOffset then [acknowledge offset] else []) ++
        acknowledgements (offset + Server.frameLength value) rest := by
  -- The rest is numbered from one on, and from there on the first value is counted too.
  have later : acknowledgements (offset + Server.frameLength value) rest =
      (rest.zipIdx 1).filterMap fun (other, place) =>
        if other.asksOffset then
          some (acknowledge (offset + counted ((value :: rest).take place)))
        else none := by
    rw [List.zipIdx_succ, List.filterMap_map]
    simp only [acknowledgements, UInt64.add_assoc]
    rfl
  rw [later, acknowledgements, List.zipIdx_cons, List.filterMap_cons]
  by_cases asked : value.asksOffset = true
  · simp [asked, counted]
  · simp [asked]

theorem isFatal_iff {value : Value} :
    value.isFatal = true ↔ ∃ refusal, value.command = .error refusal ∧ refusal.isFatal = true := by
  unfold isFatal
  cases value.command <;> simp

/-- A link ends at a value that is no request, and at a request under an unknown name. -/
theorem isFatal_eq (value : Value) : value.isFatal = (!value.isRequest || value.isUnknown) := by
  rw [Bool.eq_iff_iff, isFatal_iff]
  unfold command isRequest isUnknown
  cases Request.ofValue? value with
  | none => simp [Refusal.isFatal]
  | some request =>
    have named := Command.named_fatal_iff request.name request.arguments
    simpa [Command.ofRequest] using named

theorem isRequest_of_not_isFatal {value : Value} (proceeds : value.isFatal = false) :
    value.isRequest = true := by
  rw [isFatal_eq, Bool.or_eq_false_iff] at proceeds
  simpa using proceeds.1

theorem asksOffset_iff {value : Value} :
    value.asksOffset = true ↔ value.command = .ok (.replconf true) := by
  unfold asksOffset command
  cases Request.ofValue? value with
  | none => simp
  | some request =>
    have named := Command.named_replconf_iff request.name request.arguments
    simpa [Command.ofRequest] using named.symm

theorem processed_cons (value : Value) (rest : List Value) :
    processed (value :: rest) =
      (if value.isRequest then [value] else []) ++ if value.isFatal then [] else processed rest := by
  rw [processed, isFatal_eq]
  cases value.isRequest <;> cases value.isUnknown <;> simp

end Value

namespace Server

variable {server : Server} {now : Nat} {outbox : OutboxId}

def process (now : Nat) (outbox : OutboxId) (value : Value) (server : Server) : Server :=
  { server with
    offset := server.offset + frameLength value
    keys := value.apply now server.keys
    outboxes := if value.asksOffset then
        server.outboxes.push outbox (.value (Value.acknowledge server.offset))
      else server.outboxes }

theorem propagate_of_replica (replica : server.role.isPrimary = false) (value : Value) :
    server.propagate value = server := by
  unfold propagate
  cases role : server.role with
  | primary replicas => simp [role, Role.isPrimary] at replica
  | replica followed => rfl

theorem follow_of_error {value : Value} {refusal : Refusal} (refused : value.command = .error refusal) :
    server.follow now value =
      (.error refusal, if value.isRequest then server.advance value else server) := by
  unfold Value.command at refused
  unfold follow Value.isRequest
  cases asked : Request.ofValue? value with
  | none => simp_all
  | some request => simp_all

private theorem process_of_error {value : Value} {refusal : Refusal}
    (refused : value.command = .error refusal) :
    process now outbox value server = server.advance value := by
  have silent : value.asksOffset = false := by
    rw [Bool.eq_false_iff, Ne, Value.asksOffset_iff, refused]
    simp
  simp [process, advance, silent, Value.apply, refused]

private theorem followOne_of_ok (replica : server.role.isPrimary = false) {value : Value}
    {command : Command}
    (accepted : value.command = .ok command) :
    followOne now outbox value server = (true, process now outbox value server) := by
  have asks : value.asksOffset = (command == .replconf true) := by
    rw [Bool.eq_iff_iff, Value.asksOffset_iff, accepted]
    simp
  rw [followOne, follow_of_ok accepted]
  cases command with
  | set assignment =>
    have stored : ∀ keys, propagate { server with keys } assignment.toValue = { server with keys } := by
      intro keys
      apply propagate_of_replica
      exact replica
    simp [obey, perform, assign, process, advance, Value.apply, accepted, asks, stored]
  | replconf asksOffset =>
    cases asksOffset <;>
      simp [obey, perform, process, advance, Value.apply, accepted, asks, push, acknowledgement,
        Value.acknowledge]
  | _ => simp [obey, perform, process, advance, Value.apply, accepted, asks]

theorem followOne_eq (replica : server.role.isPrimary = false) (value : Value) :
    followOne now outbox value server =
      (!value.isFatal, if value.isRequest then process now outbox value server else server) := by
  cases asked : value.command with
  | ok command =>
    have proceeds : value.isFatal = false := by simp [Value.isFatal, asked]
    rw [followOne_of_ok replica asked, proceeds, Value.isRequest_of_not_isFatal proceeds]
    rfl
  | error refusal =>
    rw [followOne, follow_of_error asked, process_of_error asked]
    simp [Value.isFatal, asked]

private theorem runUntil_followOne_eq (replica : server.role.isPrimary = false) (values : List Value) :
    runUntil (followOne now outbox) values server =
      (values.all (!·.isFatal),
        (Value.processed values).foldl (fun current value => process now outbox value current) server) := by
  induction values generalizing server with
  | nil => rfl
  | cons value rest ih =>
    have same : (process now outbox value server).role.isPrimary = false := replica
    rw [runUntil, followOne_eq replica, Value.processed_cons]
    cases fatal : value.isFatal with
    | true => cases value.isRequest <;> simp [fatal]
    | false => simpa [Value.isRequest_of_not_isFatal fatal, fatal] using ih same

/-- What processed values made of a server. -/
structure Processed (now : Nat) (outbox : OutboxId) (values : List Value) (before after : Server) :
    Prop where
  role : after.role = before.role
  replicationId : after.replicationId = before.replicationId
  offset : after.offset = before.offset + Value.counted values
  keys : after.keys = values.foldl (fun keys value => value.apply now keys) before.keys
  isOpen : ∀ box, after.outboxes.isOpen box = before.outboxes.isOpen box
  written : before.outboxes.isOpen outbox = true → after.outboxes.frames outbox =
    before.outboxes.frames outbox ++ (Value.acknowledgements before.offset values).map .value
  others : ∀ box, box ≠ outbox → after.outboxes.frames box = before.outboxes.frames box

theorem Processed.refl (now : Nat) (outbox : OutboxId) (server : Server) :
    Processed now outbox [] server server := by
  constructor <;> simp [Value.counted, Value.acknowledgements]

theorem Processed.cons {value : Value} {rest : List Value} {after : Server}
    (later : Processed now outbox rest (process now outbox value server) after) :
    Processed now outbox (value :: rest) server after := by
  have kept : ∀ box, (process now outbox value server).outboxes.isOpen box =
      server.outboxes.isOpen box := by
    intro box
    unfold process
    split <;> simp
  constructor
  · exact later.role
  · exact later.replicationId
  · rw [later.offset, Value.counted, ← UInt64.add_assoc]
    rfl
  · exact later.keys
  · intro box
    rw [later.isOpen, kept]
  · intro opened
    rw [later.written ((kept outbox).trans opened), Value.acknowledgements_cons]
    unfold process
    split
    · simp [Outboxes.frames_push_self _ _ _ opened]
    · simp
  · intro box differ
    rw [later.others box differ]
    unfold process
    split
    · exact server.outboxes.frames_push_of_ne outbox box _ (Ne.symm differ)
    · rfl

theorem processed_foldl (values : List Value) :
    Processed now outbox values server
      (values.foldl (fun current value => process now outbox value current) server) := by
  induction values generalizing server with
  | nil => exact .refl now outbox server
  | cons value rest ih => exact ih.cons

end Server

/-- The link of a replica processes what is on it, and stays open as long as nothing is
refused fatally and every byte may belong to a value. -/
theorem Connection.receive_processed {connection : Connection} (isLink : connection.kind = .primary)
    {server : Server} (replica : server.role.isPrimary = false) (now : Nat) (bytes : Bytes) :
    let held := Value.decoded bytes
    let received := connection.receive now bytes server
    (received.1.isSome = true ↔ held.Proceeds) ∧
      Server.Processed now connection.outbox (Value.processed held.values) server received.2 := by
  intro held received
  have whole : received = _ := receive_eq connection now bytes server
  simp only [Server.settle, execute, isLink, finish, ite_self,
    Server.runUntil_followOne_eq replica] at whole
  rw [whole]
  refine ⟨?_, Server.processed_foldl _⟩
  simp [held, Value.Decoded.Proceeds, Value.isFatal_eq, and_comm]

namespace Network

private theorem send_of_closed {network : Network} {name : String} {connection : Connection}
    (found : network.find? name = some connection) (closed : connection.isOpen = false)
    (chunk : Bytes) : network.send name chunk = network := by
  have none : connection.pending = none := by simpa [Connection.isOpen] using closed
  simp [send, found, none]

private theorem sendAll_of_closed {network : Network} {name : String} {connection : Connection}
    (found : network.find? name = some connection) (closed : connection.isOpen = false)
    (chunks : List Bytes) : network.sendAll name chunks = network := by
  induction chunks with
  | nil => rfl
  | cons chunk later ih => rw [sendAll_cons, step, send_of_closed found closed, ih]

/-- However what arrives on the link of a replica is cut into chunks, all of it is processed
in order, and nothing but the acknowledgements is written to the link. -/
theorem openLink_processed {network : Network} (replica : network.server.role.isPrimary = false)
    (name : String) (buffer : Bytes) (sends : List Bytes) :
    let held := Value.decoded (buffer ++ sends.flatten)
    let done := Value.processed held.values
    let before := { network.server with outboxes := network.server.outboxes.create }
    let after := (network.step (.openPrimary name buffer)).sendAll name sends
    ∃ link, after.find? name = some link ∧
      (link.isOpen = true ↔ held.Proceeds) ∧
      Server.Processed network.now link.outbox done before after.server ∧
      after.queuedFor link = (Value.acknowledgements before.offset done).flatMap Value.encode := by
  intro held done before after
  have together : after = network.openConnection name .primary (buffer ++ sends.flatten) :=
    network.sendAll_openConnection name .primary buffer sends
  have found := network.find?_openConnection name .primary (buffer ++ sends.flatten)
  have same : after.server = _ := congrArg Network.server together
  rw [← together] at found
  obtain ⟨opened, processed⟩ := Connection.receive_processed
    (by rfl : (⟨name, .primary, network.server.outboxes.next, none⟩ : Connection).kind = .primary)
    (by exact replica : before.role.isPrimary = false) network.now (buffer ++ sends.flatten)
  have written := processed.written network.server.outboxes.isOpen_create_next
  rw [Outboxes.frames_create, Outboxes.frames_next, List.nil_append] at written
  have queued := congrArg (List.flatMap Frame.encode) written
  rw [List.flatMap_map] at queued
  refine ⟨_, found, opened, ?_, ?_⟩
  · rw [same]
    exact processed
  · rw [queuedFor, same]
    exact queued

/-- What arrives on the link of a replica is processed up to the first value that is no
request, the first request under an unknown name, or bytes that are no value, and there the
link is closed for good. However the bytes are cut, the offset moves on by the lengths of
the values processed, the keys are what accepted assignments and reads make of them, and each
request for the offset is told what was counted before it; nothing else is written. -/
theorem link_accounts {network : Network} (replica : network.server.role.isPrimary = false)
    (name : String) (buffer : Bytes) (sends : List Bytes) :
    let held := Value.decoded (buffer ++ sends.flatten)
    let done := Value.processed held.values
    let before := network.server
    let after := (network.step (.openPrimary name buffer)).sendAll name sends
    after = network.step (.openPrimary name (buffer ++ sends.flatten)) ∧
    ∃ link, after.find? name = some link ∧
      (link.isOpen = true ↔ held.Proceeds) ∧
      (link.isOpen = false → ∀ more, after.sendAll name more = after) ∧
      after.server.offset = before.offset + Value.counted done ∧
      after.server.keys = done.foldl (fun keys value => value.apply network.now keys) before.keys ∧
      after.queuedFor link = (Value.acknowledgements before.offset done).flatMap Value.encode ∧
      after.server.role = before.role ∧ after.server.replicationId = before.replicationId ∧
      ∀ box, box ≠ link.outbox → after.server.outboxes.frames box = before.outboxes.frames box := by
  intro held done before after
  obtain ⟨link, found, opened, processed, written⟩ := openLink_processed replica name buffer sends
  refine ⟨network.sendAll_openConnection name .primary buffer sends, link, found, opened,
    sendAll_of_closed found, processed.offset, processed.keys, written, processed.role,
    processed.replicationId, ?_⟩
  intro box differ
  exact (processed.others box differ).trans (before.outboxes.frames_create box)

/-- An assignment in two pieces, a request for the offset, a refused request, the offset asked
for again, and an unknown command, behind which nothing is stored. -/
theorem acknowledges_twice_and_closes :
    let network := start { Server.start (.replica ⟨"host", 6379⟩) "id" with offset := 5 }
    let buffer := Bytes.ofText "*3\r\n$3\r\nSET\r\n$1\r\nk\r\n"
    let sends := [
      Bytes.ofText "$1\r\nv\r\n*2\r\n$8\r\nREPLCONF\r\n$6\r\ngetack\r\n*1\r\n$4\r\nEC",
      Bytes.ofText "HO\r\n" ++ [["REPLCONF", "GETACK", "*"], ["X"], ["SET", "k", "w"]].flatMap
        fun words => (Value.ofWords words).encode]
    let after := (network.step (.openPrimary linkName buffer)).sendAll linkName sends
    network.server.role.isPrimary = false ∧
      ∃ link, after.find? linkName = some link ∧ link.isOpen = false ∧
        after.server.offset = 124 ∧
        after.server.keys = Keyspace.empty.set 0 (Bytes.ofText "k") (Bytes.ofText "v") none ∧
        after.queuedFor link = [["REPLCONF", "ACK", "32"], ["REPLCONF", "ACK", "76"]].flatMap
          fun words => (Value.ofWords words).encode := by
  intro network buffer sends after
  obtain ⟨_, link, found, opened, _, offset, keys, written, _⟩ :=
    link_accounts (by rfl : network.server.role.isPrimary = false) linkName buffer sends
  refine ⟨rfl, link, found, ?_, offset.trans ?_, keys.trans ?_, written.trans ?_⟩
  · rw [Bool.eq_false_iff, Ne, opened]
    decide +kernel
  · decide +kernel
  · decide +kernel
  · decide +kernel

end Network

end RespKeyspace
