import RespKeyspace.Proofs.Feeding.Effects
import RespKeyspace.Proofs.Reader.Arrival
import RespKeyspace.Proofs.Reader.RoundTrip
import RespKeyspace.Proofs.Session.Sequential
import RespKeyspace.Service

/-! A replica that is fed assignments stores each of them without a lifetime, answers
none of them, and counts them all. -/

namespace RespKeyspace

namespace Assignment

def permanent (assignment : Assignment) : Assignment := { assignment with lifetime := none }

def latest? (writes : List Assignment) (key : Bytes) : Option Assignment :=
  writes.reverse.find? fun assignment => assignment.key = key

theorem latest?_append (first second : List Assignment) (key : Bytes) :
    latest? (first ++ second) key = (latest? second key).or (latest? first key) := by
  simp [latest?, List.find?_append]

theorem latest?_singleton (assignment : Assignment) (key : Bytes) :
    latest? [assignment] key = if assignment.key = key then some assignment else none := by
  by_cases same : assignment.key = key <;> simp [latest?, same]

theorem command_toValue (assignment : Assignment) :
    assignment.toValue.command = .ok (.set assignment.permanent) :=
  Value.command_ofParts [assignment.key, assignment.content] (by decide)

theorem wellFormed_toValue {assignment : Assignment} (key : assignment.key.length ≤ Value.maxBulkLength)
    (content : assignment.content.length ≤ Value.maxBulkLength) :
    assignment.toValue.WellFormed Value.maxDepth := by
  refine Value.wellFormed_ofParts_iff.mpr ⟨by simp [Value.maxArrayLength], ?_⟩
  intro part member
  simp only [List.mem_cons, List.not_mem_nil, or_false] at member
  rcases member with rfl | rfl | rfl
  · decide
  · exact key
  · exact content

end Assignment

namespace Keyspace

/-- Store assignments one after the other, each without a lifetime. -/
def store (keys : Keyspace) (now : Nat) (writes : List Assignment) : Keyspace :=
  writes.foldl (fun keys assignment => keys.set now assignment.key assignment.content none) keys

theorem find?_store (keys : Keyspace) (now : Nat) (writes : List Assignment) (key : Bytes) :
    (keys.store now writes).find? key =
      ((Assignment.latest? writes key).map fun assignment => ⟨assignment.content, none⟩).or
        (keys.find? key) := by
  induction writes generalizing keys with
  | nil => rfl
  | cons first rest ih =>
    have behind := ih (keys.set now first.key first.content none)
    rw [← List.singleton_append, Assignment.latest?_append, Assignment.latest?_singleton]
    change (store _ now rest).find? key = _
    rw [behind, find?_set]
    cases Assignment.latest? rest key with
    | some last => rfl
    | none =>
      by_cases same : first.key = key
      · simp [same]
      · simp [same, Ne.symm same]

end Keyspace

namespace Server

variable {server : Server} {now : Nat}

/-- A server that has stored assignments, each without a lifetime, and counted them. -/
def copied (server : Server) (now : Nat) (writes : List Assignment) : Server :=
  { server with
    keys := server.keys.store now writes
    offset := server.offset +
      UInt64.ofNat ((writes.map Assignment.toValue).flatMap Value.encode).length }

theorem copied_nil (server : Server) (now : Nat) : server.copied now [] = server := by
  simp [copied, Keyspace.store]

theorem copied_append (server : Server) (now : Nat) (first second : List Assignment) :
    server.copied now (first ++ second) = (server.copied now first).copied now second := by
  simp [copied, Keyspace.store, UInt64.ofNat_add, UInt64.add_assoc]

theorem copied_cons (server : Server) (now : Nat) (first : Assignment) (rest : List Assignment) :
    server.copied now (first :: rest) = (server.copied now [first]).copied now rest :=
  server.copied_append now [first] rest

theorem follow_of_ok {value : Value} {command : Command} (accepted : value.command = .ok command) :
    server.follow now value =
      (.ok (server.obey now command).1, (server.obey now command).2.advance value) := by
  unfold Value.command at accepted
  unfold follow
  cases asked : Request.ofValue? value with
  | none => simp [asked] at accepted
  | some request =>
    simp only [asked] at accepted
    simp only [accepted]

theorem follow_toValue (replica : server.role.isPrimary = false) (assignment : Assignment) :
    server.follow now assignment.toValue = (.ok .silent, server.copied now [assignment]) := by
  rw [follow_of_ok assignment.command_toValue]
  obtain ⟨role, replicationId, offset, keys, outboxes⟩ := server
  cases role with
  | primary replicas => cases replica
  | replica followed =>
    simp [obey, perform, assign, propagate, advance, copied, Keyspace.store, frameLength,
      Assignment.permanent, Assignment.toValue, Value.ofParts]

private theorem runUntil_followOne (replica : server.role.isPrimary = false) (now : Nat)
    (outbox : OutboxId)
    (writes : List Assignment) :
    runUntil (followOne now outbox) (writes.map Assignment.toValue) server =
      (true, server.copied now writes) := by
  induction writes generalizing server with
  | nil => rw [copied_nil]; rfl
  | cons first rest ih =>
    have one : followOne now outbox first.toValue server = (true, server.copied now [first]) := by
      rw [followOne, follow_toValue replica]
    have behind : runUntil (followOne now outbox) (rest.map Assignment.toValue)
        (server.copied now [first]) = _ := ih replica
    rw [List.map_cons, runUntil, one, server.copied_cons now first rest]
    exact behind

end Server

namespace Value

variable {writes : List Assignment} {bytes more : Bytes}

private theorem decoded_written (formed : ∀ assignment ∈ writes, assignment.toValue.WellFormed maxDepth)
    (written : bytes = (writes.map Assignment.toValue).flatMap encode) :
    decoded bytes = ⟨writes.map Assignment.toValue, none, []⟩ := by
  have each : ∀ value ∈ writes.map Assignment.toValue, WellFormed maxDepth value :=
    List.forall_mem_map.mpr formed
  rw [written, decoded_encoded each]

private theorem decoded_of_written_append
    (formed : ∀ assignment ∈ writes, assignment.toValue.WellFormed maxDepth)
    (written : bytes ++ more = (writes.map Assignment.toValue).flatMap encode) :
    ∃ done : List Assignment,
      decoded bytes = ⟨done.map Assignment.toValue, none, (decoded bytes).rest⟩ := by
  have each : ∀ value ∈ writes.map Assignment.toValue, WellFormed maxDepth value :=
    List.forall_mem_map.mpr formed
  obtain ⟨sound, later, front⟩ := decoded_of_append each written
  obtain ⟨done, _, _, held, _⟩ := List.map_eq_append_iff.mp front.symm
  refine ⟨done, ?_⟩
  rw [held, ← sound]

end Value

private theorem Connection.receive_written {connection : Connection}
    (isLink : connection.kind = .primary)
    {server : Server} (replica : server.role.isPrimary = false) (now : Nat) {bytes pending : Bytes}
    {done : List Assignment}
    (held : Value.decoded bytes = ⟨done.map Assignment.toValue, none, pending⟩) :
    connection.receive now bytes server = (some pending, server.copied now done) := by
  have ran := Server.runUntil_followOne replica now connection.outbox done
  simp [receive_eq, Server.settle, execute, isLink, held, ran]

namespace Network

/-- A link is opened, and chunks arrive on it. -/
def openLink (server : Server) (buffer : Bytes) (chunks : List Bytes) : Network :=
  ((start server).step (.openPrimary linkName buffer)).sendAll linkName chunks

private theorem openLink_written {server : Server} (replica : server.role.isPrimary = false)
    {buffer pending : Bytes} {chunks : List Bytes} {done : List Assignment}
    (held : Value.decoded (buffer ++ chunks.flatten) =
      ⟨done.map Assignment.toValue, none, pending⟩) :
    openLink server buffer chunks =
      ⟨Server.copied { server with outboxes := server.outboxes.create } 0 done, 0,
        [⟨linkName, .primary, server.outboxes.next, some pending⟩]⟩ := by
  let opened := { server with outboxes := server.outboxes.create }
  have same : opened.role.isPrimary = false := replica
  have received := Connection.receive_written
    (by rfl : (⟨linkName, .primary, server.outboxes.next, none⟩ : Connection).kind = .primary)
    same 0 held
  unfold openLink
  rw [step, sendAll_openConnection]
  simp only [openConnection, start]
  rw [received]

end Network

namespace Server

/-- A replica that works off a link on which written assignments arrive keeps the link
open as long as bytes arrive, answers nothing, and has copied them all at the end. -/
theorem runLink_written {server : Server} (replica : server.role.isPrimary = false)
    {incoming : Incoming} {writes : List Assignment}
    (formed : ∀ assignment ∈ writes, assignment.toValue.WellFormed Value.maxDepth)
    (written : incoming.bytes = (writes.map Assignment.toValue).flatMap Value.encode) :
    (∀ count, ∃ connection,
      (Network.openLink server incoming.buffer (incoming.chunks.take count)).find? Network.linkName =
        some connection ∧ connection.isOpen = true) ∧
    (server.runLink incoming).1 = [] ∧
    (server.runLink incoming).2.server =
      copied { server with outboxes := server.outboxes.create } 0 writes := by
  refine ⟨?_, ?_⟩
  · intro count
    have part : (incoming.buffer ++ (incoming.chunks.take count).flatten) ++
        (incoming.chunks.drop count).flatten =
        (writes.map Assignment.toValue).flatMap Value.encode := by
      rw [← written, Incoming.bytes, List.append_assoc, ← List.flatten_append, List.take_append_drop]
    obtain ⟨done, held⟩ := Value.decoded_of_written_append formed part
    rw [Network.openLink_written replica held]
    exact ⟨_, List.find?_cons_of_pos (by simp), rfl⟩
  · have held := Value.decoded_written formed written
    have opened := Network.openLink_written replica held
    have quiet : server.outboxes.create.frames server.outboxes.next = [] := by
      rw [Outboxes.frames_create, Outboxes.frames_next]
    have same : server.runLink incoming =
        let ended := (Network.openLink server incoming.buffer incoming.chunks).step
          (.finish Network.linkName)
        (((ended.find? Network.linkName).map ended.queuedFor).getD [], ended) := rfl
    rw [same, opened]
    simp [Network.step, Network.finish, Network.find?, Network.updateNamed, Connection.isOpen,
      Connection.finish, Network.queuedFor, copied, quiet]

end Server

end RespKeyspace
