import RespKeyspace.Proofs.Link.Greetings
import RespKeyspace.Proofs.Link.Upstream
import RespKeyspace.Proofs.Session.Course

/-! A replica and its primary, from the first greeting on: the replica comes to hold what
the clients of the primary assigned since it was recorded. -/

namespace RespKeyspace

namespace Greeting

def answer (server : Server) : Greeting → List Frame
  | .ping => [.value (.simple "PONG")]
  | .listeningPort | .capabilities => [.value (.simple "OK")]
  | .psync => [.value server.resyncAnnouncement, .snapshot Snapshot.empty]

private theorem decoded_bytes (port : UInt16) :
    Value.decoded (bytes port.toNat) = ⟨all.map (toValue port.toNat), none, []⟩ := by
  have formed : ∀ value ∈ all.map (toValue port.toNat), value.WellFormed Value.maxDepth := by
    intro value member
    obtain ⟨greeting, _, rfl⟩ := List.mem_map.mp member
    exact greeting.wellFormed_toValue port
  rw [bytes, Value.decoded_encoded formed]

private theorem answer_with_outboxes (server : Server) (outboxes : Outboxes) :
    answer { server with outboxes } = answer server := by
  funext greeting
  cases greeting <;> rfl

end Greeting

namespace Server

variable (server : Server) (now : Nat) (client : Client) (port : Nat)

private theorem serve_greeting (greeting : Greeting) :
    server.serve now (greeting.toValue port) =
      (.ok (server.perform now greeting.command).1, (server.perform now greeting.command).2) := by
  rw [serve_eq, greeting.command_toValue]

private theorem ownCopy_greeting (greeting : Greeting) :
    server.ownCopy client (greeting.toValue port) = [] := by
  simp only [ownCopy, greeting.write?_toValue]

private theorem course_greetings :
    course now client (Greeting.all.map (Greeting.toValue port)) server =
      ⟨Greeting.all.flatMap (Greeting.answer server), true,
        server.register client.address client.outbox⟩ := by
  simp [Greeting.all, Greeting.preliminaries, course, Server.answer, serve_greeting,
    ownCopy_greeting, Greeting.command, perform, Greeting.answer]

private theorem served_greetings (listener : UInt16) :
    server.served now client (Greeting.bytes listener.toNat) false =
      ⟨Greeting.all.flatMap (Greeting.answer server), true,
        server.register client.address client.outbox⟩ := by
  unfold served
  rw [Greeting.decoded_bytes]
  simp [course_greetings]

end Server

namespace Network

variable {network : Network} {name : String}

def subscription (network : Network) (name : String) : Subscription :=
  ⟨name, network.server.outboxes.next, Greeting.all.flatMap (Greeting.answer network.server),
    network.server.offset⟩

private theorem visit_eq (network : Network) (name : String) {bytes : Bytes} (arrival : Arrival bytes) :
    network.visit name arrival.chunks false = network.openConnection name .client bytes := by
  simp [visit, step, sendAll_openConnection, arrival.whole]

/-- A replica that has greeted a primary is fed. -/
theorem feeds_greeted (grounded : network.Grounded) (isPrimary : network.server.role.isPrimary = true)
    (others : ∀ connection ∈ network.connections,
      connection.kind = .client ∧ connection.name ≠ name)
    (port : UInt16) (greeting : Arrival (Greeting.bytes port.toNat)) :
    (network.visit name greeting.chunks false).Feeds (network.subscription name) [] := by
  have shown := shows_openConnection grounded.server name (Greeting.bytes port.toNat)
  rw [Server.served_greetings] at shown
  rw [visit_eq]
  obtain ⟨found, agree, frames⟩ := shown
  refine ⟨grounded.openConnection name .client _, ?_, ?_, ?_, by simp⟩
  · constructor
    · rw [agree.role]
      exact (Server.isPrimary_register _ _ _).trans isPrimary
    · exact (agree.isOpen _).trans network.server.outboxes.isOpen_create_next
    · refine (agree.replica? name).trans ?_
      rw [Server.replica?_register]
      exact if_pos ⟨isPrimary, rfl⟩
    · intro address same
      rw [agree.replica?, Server.replica?_register] at same
      split at same
      · rename_i here
        exact here.2
      · exact absurd (grounded.server address _ same) (Nat.lt_irrefl _)
    · rw [Greeting.answer_with_outboxes] at frames
      exact frames.trans (List.append_nil _).symm
    · exact agree.offset.trans (UInt64.add_zero _).symm
    · exact Keyspace.reflects_nil _
  · rw [Greeting.decoded_bytes] at found
    exact found
  · intro connection member away
    rcases List.mem_cons.mp member with rfl | earlier
    · exact (away rfl).elim
    · exact ⟨(others connection earlier).1, Nat.ne_of_lt (grounded.connections connection earlier)⟩

private theorem flatMap_encode_fed (server : Server) (writes : List Assignment) :
    (Greeting.all.flatMap (Greeting.answer server) ++ writes.map Subscription.frame).flatMap
        Frame.encode =
      [Value.simple "PONG", .simple "OK", .simple "OK"].flatMap Value.encode ++
        (server.resyncAnnouncement.encode ++ (Snapshot.encode Snapshot.empty ++
          (writes.map Assignment.toValue).flatMap Value.encode)) := by
  have fed : (writes.map Subscription.frame).flatMap Frame.encode =
      (writes.map Assignment.toValue).flatMap Value.encode := by
    rw [List.flatMap_map, List.flatMap_map]
    rfl
  rw [List.flatMap_append, fed]
  simp [Greeting.all, Greeting.preliminaries, Greeting.answer, Frame.encode]

theorem wellFormed_answers :
    ∀ answer ∈ [Value.simple "PONG", .simple "OK", .simple "OK"],
      answer.WellFormed Value.maxDepth := by
  have word : ∀ text ∈ ["PONG", "OK"], Value.WellFormed Value.maxDepth (.simple text) := by
    intro text member
    refine .simple (Bytes.not_lineEnd_infix_of_notMem (Bytes.carriageReturn_notMem_ofText ?_))
    revert text
    decide
  simp [word]

/-- Take any primary with connections of clients alone, and a client that greets it as a
replica does, under a name that no other connection has. Whatever the other clients do
then, and however all that is queued for the replica arrives: the handshake gives the
replication id of the primary and leaves what is queued behind the snapshot, which is what
was assigned since, and a replica without keys that works this off keeps the link open,
answers nothing, moves its offset as far as the primary, and holds for every key what was
assigned to it last, without a lifetime. The primary holds nothing else for such a key. -/
theorem replica_follows_primary (network : Network) (grounded : network.Grounded)
    (isPrimary : network.server.role.isPrimary = true)
    (isWord : Text.IsWord network.server.replicationId) (name : String)
    (others : ∀ connection ∈ network.connections,
      connection.kind = .client ∧ connection.name ≠ name)
    (port : UInt16) (greeting : Arrival (Greeting.bytes port.toNat))
    (steps : List Step) (spare : ∀ step ∈ steps, step.Spares name) :
    let greeted := network.visit name greeting.chunks false
    let ended := greeted.run steps
    let writes := greeted.writes steps
    ∃ connection, ended.find? name = some connection ∧ connection.isOpen = true ∧
      ended.server.outboxes.frames connection.outbox =
        Greeting.all.flatMap (Greeting.answer network.server) ++ writes.map Subscription.frame ∧
      ended.server.keys.Reflects writes ∧
      ∀ (arrival : Arrival (ended.queuedFor connection)) (failure : Option String),
        ∃ wire, Wire.handshake { incoming := .ofArrival arrival failure } port.toNat =
            (.ok (some network.server.replicationId), wire) ∧
          wire.incoming.bytes = (writes.map Assignment.toValue).flatMap Value.encode ∧
          ∀ replica : Server, replica.role.isPrimary = false → replica.keys = .empty →
            (∀ count, ∃ link, (openLink replica wire.incoming.buffer
                (wire.incoming.chunks.take count)).find? linkName = some link ∧
              link.isOpen = true) ∧
            (replica.runLink wire.incoming).1 = [] ∧
            (replica.runLink wire.incoming).2.server.offset =
              replica.offset + (ended.server.offset - greeted.server.offset) ∧
            ∀ key, (replica.runLink wire.incoming).2.server.keys.find? key =
              (Assignment.latest? writes key).map fun assignment => ⟨assignment.content, none⟩ := by
  intro greeted ended writes
  have started := feeds_greeted grounded isPrimary others port greeting
  have feeds : ended.Feeds (network.subscription name) writes := started.run spare
  refine ⟨_, feeds.own, rfl, feeds.fed.frames, feeds.fed.reflects, ?_⟩
  intro arrival failure
  have queued := (congrArg (List.flatMap Frame.encode) feeds.fed.frames).trans
    (flatMap_encode_fed network.server writes)
  have arrives := (Incoming.bytes_ofArrival arrival failure).trans queued
  obtain ⟨wire, shaken, left⟩ := Wire.handshake_of_delivers port.toNat (by rfl) wellFormed_answers
    (Server.wellFormed_resyncAnnouncement isWord) (Server.announcedId?_resyncAnnouncement isWord)
    (by decide)
    (⟨rfl, rfl, arrives, arrival.nonempty, rfl⟩ :
      Wire.Delivers { incoming := .ofArrival arrival failure } _ failure)
  refine ⟨wire, shaken, left.incoming.whole, ?_⟩
  intro replica follows empty
  obtain ⟨stays, quiet, copied⟩ := Server.runLink_written follows feeds.formed left.incoming.whole
  refine ⟨stays, quiet, ?_, ?_⟩
  · have start : greeted.server.offset = (network.subscription name).offset :=
      started.fed.offset.trans (UInt64.add_zero _)
    rw [copied, feeds.fed.offset, start, UInt64.add_comm (network.subscription name).offset,
      UInt64.add_sub_cancel]
    rfl
  · intro key
    have stored := Keyspace.find?_store .empty 0 writes key
    rw [Keyspace.find?_empty, Option.or_none] at stored
    rw [copied, Server.copied, empty]
    exact stored

/-- A replica that greets while nobody else is there holds what a client assigns then. -/
theorem replica_holds_later_write :
    let network := start (Server.start (.primary .empty) "id")
    let greeted := network.visit "replica" (Arrival.atOnce (Greeting.bytes 6380)).chunks false
    let ended := greeted.run [.openClient "client",
      .send "client" (Bytes.ofText "*3\r\n$3\r\nSET\r\n$1\r\nk\r\n$1\r\nv\r\n")]
    ∃ connection wire, ended.find? "replica" = some connection ∧
      Wire.handshake { incoming := .ofArrival (.atOnce (ended.queuedFor connection)) none } 6380 =
        (.ok (some "id"), wire) ∧
      ((Server.start (.replica ⟨"localhost", 6379⟩) "other").runLink wire.incoming).2.server.keys.find?
        (Bytes.ofText "k") = some ⟨Bytes.ofText "v", none⟩ := by
  intro network greeted ended
  have grounded : network.Grounded := by
    apply grounded_start
    intro address box found
    cases found
  obtain ⟨connection, found, _, _, _, replicates⟩ := replica_follows_primary network grounded rfl
    (by decide) "replica" (by simp [network, start]) 6380 (.atOnce (Greeting.bytes 6380))
    [.openClient "client", .send "client" (Bytes.ofText "*3\r\n$3\r\nSET\r\n$1\r\nk\r\n$1\r\nv\r\n")]
    (by simp [Step.Spares])
  obtain ⟨wire, shaken, _, follows⟩ := replicates (.atOnce _) none
  obtain ⟨_, _, _, held⟩ := follows (.start (.replica ⟨"localhost", 6379⟩) "other") rfl rfl
  refine ⟨connection, wire, found, shaken, (held _).trans ?_⟩
  decide +kernel

end Network

end RespKeyspace
