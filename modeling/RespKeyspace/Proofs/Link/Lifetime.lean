import Mathlib.Algebra.Group.Nat.Defs
import RespKeyspace.Proofs.Link.Dialogue
import RespKeyspace.Proofs.Serving.Attending
import RespKeyspace.Proofs.Serving.Report
import RespKeyspace.Proofs.Session.Recall

/-! A replica's whole run: it greets its primary, works off the link, and serves its clients.
The primary may send any bytes, and decides how far the run comes. -/

namespace RespKeyspace

namespace Keyspace

/-- Store assignments one after the other, each with its lifetime. -/
def assign (keys : Keyspace) (now : Nat) (writes : List Assignment) : Keyspace :=
  writes.foldl (fun keys written => keys.set now written.key written.content written.lifetime) keys

/-- Keys of which none is over. -/
def Fresh (keys : Keyspace) (now : Nat) : Prop :=
  ∀ key entry, keys.find? key = some entry → entry.isExpired now = false

variable {keys : Keyspace} {now : Nat}

private theorem fresh_empty (now : Nat) : Fresh .empty now := by
  intro key entry found
  cases found

private theorem Fresh.get_snd (fresh : keys.Fresh now) (key : Bytes) : (keys.get now key).2 = keys := by
  unfold Keyspace.get
  cases found : keys.find? key with
  | none => rfl
  | some entry => simp [fresh key entry found]

private theorem Fresh.set (fresh : keys.Fresh now) {value : Value} {written : Assignment}
    (assigned : value.write? = some written) :
    (keys.set now written.key written.content written.lifetime).Fresh now := by
  intro key entry found
  rw [find?_set] at found
  split at found
  · cases found
    exact Value.not_isExpired_of_write? assigned now
  · exact fresh key entry found

theorem Fresh.foldl_apply (fresh : keys.Fresh now) (values : List Value) :
    values.foldl (fun keys value => value.apply now keys) keys =
      keys.assign now (values.filterMap Value.write?) := by
  induction values generalizing keys with
  | nil => rfl
  | cons value rest ih =>
    rw [List.foldl_cons, List.filterMap_cons]
    cases assigned : value.write? with
    | some written =>
      have stored : value.apply now keys = keys.set now written.key written.content written.lifetime := by
        simp [Value.apply, Value.write?_eq_some_iff.mp assigned]
      rw [stored]
      exact ih (fresh.set assigned)
    | none =>
      have kept : value.apply now keys = keys := by
        unfold Value.apply
        cases asked : value.command with
        | error refusal => rfl
        | ok command =>
          cases command with
          | get key => exact fresh.get_snd key
          | set written => simp [Value.write?, asked] at assigned
          | _ => rfl
      rw [kept]
      exact ih fresh

end Keyspace

namespace Value

private theorem length_encode_pos (value : Value) : 0 < value.encode.length := by
  cases value <;> simp [line]

/-- The offsets that are acknowledged begin where counting begins, and grow from one to the next,
as long as they do not overflow. -/
theorem exists_offsets (offset : UInt64) (values : List Value) :
    ∃ offsets : List UInt64, acknowledgements offset values = offsets.map acknowledge ∧
      (offset.toNat + (values.flatMap encode).length < 2 ^ 64 →
        (∀ acknowledged ∈ offsets, offset ≤ acknowledged) ∧ offsets.Pairwise (· < ·)) := by
  induction values generalizing offset with
  | nil => exact ⟨[], rfl, by simp⟩
  | cons value rest ih =>
    obtain ⟨offsets, same, grow⟩ := ih (offset + Server.frameLength value)
    refine ⟨(if value.asksOffset then [offset] else []) ++ offsets, ?_, ?_⟩
    · rw [acknowledgements_cons, same]
      cases value.asksOffset <;> rfl
    · intro bounded
      rw [List.flatMap_cons, List.length_append] at bounded
      have counted : (offset + Server.frameLength value).toNat = offset.toNat + value.encode.length := by
        rw [Server.frameLength, UInt64.toNat_add, UInt64.toNat_ofNat']
        omega
      obtain ⟨above, increasing⟩ := grow (by omega)
      have beyond : ∀ acknowledged ∈ offsets, offset < acknowledged := by
        intro acknowledged member
        have least := UInt64.le_iff_toNat_le.mp (above acknowledged member)
        have positive := value.length_encode_pos
        exact UInt64.lt_iff_toNat_lt.mpr (by omega)
      cases value.asksOffset with
      | false => exact ⟨fun acknowledged member => UInt64.le_of_lt (beyond acknowledged member), increasing⟩
      | true =>
        refine ⟨?_, List.pairwise_cons.mpr ⟨beyond, increasing⟩⟩
        intro acknowledged member
        rcases List.mem_cons.mp member with rfl | later
        · exact UInt64.le_refl _
        · exact UInt64.le_of_lt (beyond acknowledged later)

end Value

/-- How bytes let a handshake succeed: they begin with four replies, and a snapshot follows if and
only if the last reply announces one. -/
inductive Welcome (content rest : Bytes) : Option String → Prop where
  | plain {replies reply} (last : (replies ++ [reply]).length = Greeting.all.length)
      (held : Value.Holds content (replies ++ [reply]) rest)
      (silent : ∀ id, ¬ reply.Announces id) : Welcome content rest none
  | loaded {replies reply id snapshot payload}
      (last : (replies ++ [reply]).length = Greeting.all.length)
      (held : Value.Holds content (replies ++ [reply]) (snapshot ++ rest))
      (announces : reply.Announces id)
      (whole : Snapshot.read snapshot = .value payload []) : Welcome content rest (some id)

private theorem Completed.welcome {setting : Setting} {wire : Wire} {announced : Option String}
    (completed : Completed setting wire announced) :
    Welcome setting.chunks.flatten wire.incoming.bytes announced := by
  cases completed with
  | plain passed last held silent =>
    have all := held.append wire.incoming.chunks.flatten
    rw [← List.flatten_append, ← passed.chunks] at all
    exact .plain last all silent
  | loaded passed last held announces whole =>
    have all := held.append wire.incoming.chunks.flatten
    rw [← List.flatten_append, ← passed.chunks, List.append_assoc] at all
    exact .loaded last all announces whole

private theorem Failed.sent {setting : Setting} (writes : setting.writes = none)
    (flushes : setting.flushes = none) {wire : Wire} {fault : HandshakeFault}
    (failed : Failed setting wire fault) :
    ∃ sent, 1 ≤ sent ∧ sent ≤ Greeting.all.length ∧ wire.written =
      (Greeting.all.take sent).flatMap fun greeting => (greeting.toValue setting.port).encode := by
  cases failed with
  | unsent passed held due fails =>
    rw [writes] at fails
    cases fails
  | unflushed passed held due fails =>
    rw [flushes] at fails
    cases fails
  | unanswered passed => exact ⟨_, Nat.le_add_left 1 _, passed.sent_le, passed.written_eq⟩
  | unloaded passed => exact ⟨_, by decide, passed.sent_le, passed.written_eq⟩

namespace Server

/-- A replica that works off a link processes what is on it and writes the acknowledgements, and
the link is closed behind it. -/
theorem runLink_processed {server : Server} (replica : server.role.isPrimary = false)
    (incoming : Incoming) :
    let done := Value.processed (Value.decoded incoming.bytes).values
    (server.runLink incoming).1 = (Value.acknowledgements server.offset done).flatMap Value.encode ∧
      (server.runLink incoming).2.now = 0 ∧
      ∃ outboxes, (server.runLink incoming).2.server =
        { server with
          offset := server.offset + Value.counted done
          keys := done.foldl (fun keys value => value.apply 0 keys) server.keys
          outboxes } := by
  intro done
  let link : Connection := ⟨Network.linkName, .primary, server.outboxes.next, none⟩
  let opened := { server with outboxes := server.outboxes.create }
  have same : opened.role.isPrimary = false := replica
  obtain ⟨_, processed⟩ := Connection.receive_processed (by rfl : link.kind = .primary) same 0
    incoming.bytes
  have ended : ((Network.openLink server incoming.buffer incoming.chunks).step
      (.finish Network.linkName)) = ⟨(link.receive 0 incoming.bytes opened).2, 0, [link]⟩ := by
    have finished := Network.finish_openConnection (Network.start server) Network.linkName .primary
      incoming.bytes
    unfold Network.openLink
    rw [Network.step, Network.sendAll_openConnection]
    exact finished rfl
  have ran : server.runLink incoming =
      (((link.receive 0 incoming.bytes opened).2.outboxes.frames link.outbox).flatMap Frame.encode,
        ⟨(link.receive 0 incoming.bytes opened).2, 0, [link]⟩) := by
    have unfolded : server.runLink incoming =
        let network := (Network.openLink server incoming.buffer incoming.chunks).step
          (.finish Network.linkName)
        (((network.find? Network.linkName).map network.queuedFor).getD [], network) := rfl
    rw [unfolded, ended]
    simp [Network.find?, Network.queuedFor, link]
  have frames := processed.written server.outboxes.isOpen_create_next
  rw [Outboxes.frames_create, Outboxes.frames_next, List.nil_append] at frames
  rw [ran]
  refine ⟨?_, rfl, (link.receive 0 incoming.bytes opened).2.outboxes, ?_⟩
  · rw [frames, List.flatMap_map]
    rfl
  · have role := processed.role
    have replicationId := processed.replicationId
    have offset := processed.offset
    have keys := processed.keys
    revert role replicationId offset keys
    cases (link.receive 0 incoming.bytes opened).2 with
    | mk role replicationId offset keys outboxes =>
      rintro rfl rfl rfl rfl
      rfl

section Ending

variable {server : Server} {port : Nat} {content : Bytes} {clients : List Bytes} {wire : Wire}

theorem runReplica_of_error {fault : HandshakeFault}
    (shaken : (Setting.wire ⟨port, if content.isEmpty then [] else [content], none, none,
      none⟩).handshake port = (.error fault, wire)) :
    server.runReplica port content clients = ⟨wire.written, .error (.handshake fault)⟩ := by
  simp only [Setting.wire] at shaken
  simp only [runReplica, shaken]

theorem runReplica_of_ok {announced : Option String}
    (shaken : (Setting.wire ⟨port, if content.isEmpty then [] else [content], none, none,
      none⟩).handshake port = (.ok announced, wire)) :
    server.runReplica port content clients =
      ⟨wire.written ++ ((server.adopt announced).runLink wire.incoming).1,
        .ok (((server.adopt announced).runLink wire.incoming).2.sessions clients)⟩ := by
  simp only [Setting.wire] at shaken
  simp only [runReplica, shaken]

end Ending

/-- A replica that starts without keys may meet any bytes at its primary's address. It sends the
first greetings, and if the handshake fails there, no client is served. Otherwise it has sent all
of them, and then sends whole acknowledgements of growing offsets and nothing else; each client is
served, one after the other, by a replica that holds exactly what the processed values of the link
assigned, and whose report has a line with the id announced, or with its own if none was. -/
theorem replica_runs_to_its_end (followed : Endpoint) (own : String) (offset : UInt64)
    (outboxes : Outboxes) (port : Nat) (content : Bytes) (clients : List Bytes) :
    let server : Server := ⟨.replica followed, own, offset, .empty, outboxes⟩
    let report := server.run port (.sends content) clients
    let chunks := if content.isEmpty then [] else [content]
    let greeted := (Setting.wire ⟨port, chunks, none, none, none⟩).handshake port
    (∀ fault, greeted.1 = .error fault → ∃ sent, 1 ≤ sent ∧ sent ≤ Greeting.all.length ∧
      report = ⟨(Greeting.all.take sent).flatMap fun greeting => (greeting.toValue port).encode,
        .error (.handshake fault)⟩) ∧
    ∀ announced, greeted.1 = .ok announced → ∃ rest, Welcome content rest announced ∧
      let commands := Value.processed (Value.decoded rest).values
      let ready : Server := ⟨.replica followed, announced.getD own,
        offset + Value.counted commands,
        Keyspace.empty.assign 0 (commands.filterMap Value.write?), .none⟩
      (∃ offsets : List UInt64, report.toPrimary =
          Greeting.bytes port ++ (offsets.map Value.acknowledge).flatMap Value.encode ∧
        (offset.toNat + (commands.flatMap Value.encode).length < 2 ^ 64 →
          (∀ acknowledged ∈ offsets, offset ≤ acknowledged) ∧ offsets.Pairwise (· < ·))) ∧
      report.sessions = .ok (ready.attendAll 0 clients) ∧
      Text.HasLine ("master_replid:" ++ announced.getD own) ready.replicationReport ∧
      ∀ (place : Nat) (client : Bytes), clients[place]? = some client → ∃ keys,
        let results := (serveAll { ready with keys } (turnsOf 0 (Value.requests client))).1
        (ready.attendAll 0 clients)[place]? = some ((answers results).flatMap Piece.encode) ∧
        ∀ (number : Nat) (value : Value), (Value.requests client)[number]? = some value →
          (value.command = .ok .info → results[number]? =
            some ((), .ok (.reply (.bulk (Bytes.ofText ready.replicationReport))))) ∧
          (value.command = .ok .psync → results[number]? =
            some ((), .ok (.sync (.simple ("FULLRESYNC " ++ announced.getD own ++ " 0"))))) := by
  intro server report chunks greeted
  have comes := comes_handshake ⟨port, chunks, none, none, none⟩
  have whole : chunks.flatten = content := by
    by_cases empty : content = [] <;> simp [chunks, empty]
  cases shaken : (Setting.wire ⟨port, chunks, none, none, none⟩).handshake port with
  | mk result wire =>
  rw [shaken] at comes
  cases result with
  | error fault =>
    refine ⟨?_, by simp [greeted, shaken]⟩
    rintro _ same
    obtain rfl : fault = _ := by simpa [greeted, shaken] using same
    obtain ⟨sent, least, most, written⟩ := Failed.sent rfl rfl comes
    refine ⟨sent, least, most, ?_⟩
    have ran : report = ⟨wire.written, _⟩ := runReplica_of_error shaken
    rw [ran, written]
  | ok announced =>
    refine ⟨by simp [greeted, shaken], ?_⟩
    rintro _ same
    obtain rfl : announced = _ := by simpa [greeted, shaken] using same
    have welcome := comes.welcome
    rw [whole] at welcome
    let commands := Value.processed (Value.decoded wire.incoming.bytes).values
    let ready : Server := ⟨.replica followed, announced.getD own, offset + Value.counted commands,
      Keyspace.empty.assign 0 (commands.filterMap Value.write?), .none⟩
    obtain ⟨acknowledged, now, boxes, ended⟩ :=
      runLink_processed (by rfl : (server.adopt announced).role.isPrimary = false) wire.incoming
    have stored := (Keyspace.fresh_empty 0).foldl_apply commands
    have left : ((server.adopt announced).runLink wire.incoming).2.server =
        { ready with outboxes := boxes } := by
      rw [ended]
      simp only [ready, ← stored]
      rfl
    have served := Network.sessions_of_replica (by rfl : ready.role.isPrimary = false) left clients
    rw [now] at served
    obtain ⟨offsets, told, grow⟩ := Value.exists_offsets offset commands
    obtain ⟨_, passed⟩ := comes.passed
    have ran : report = ⟨wire.written ++ _, _⟩ := runReplica_of_ok shaken
    refine ⟨wire.incoming.bytes, welcome, ⟨offsets, ?_, grow⟩, ?_, hasLine_replicationId ready, ?_⟩
    · rw [ran]
      dsimp only
      rw [acknowledged, passed.written_eq, List.take_length, Greeting.bytes, List.flatMap_map, ← told]
      rfl
    · rw [ran]
      dsimp only
      rw [served]
    · intro place client found
      obtain ⟨keys, replies⟩ :=
        attendAll_of_replica 0 (by rfl : ready.role.isPrimary = false) found
      refine ⟨keys, replies, ?_⟩
      intro number value asked
      have turn : (turnsOf 0 (Value.requests client))[number]? = some ⟨(), 0, value⟩ := by
        simp [turnsOf, asked]
      exact reports_of_replica (by rfl : { ready with keys }.role.isPrimary = false) turn

/-- Replies, the snapshot, an assignment, a request for the offset and bytes that are no value, all
at once. The assignment is 31 bytes long, and a client reads it although the link is closed. -/
theorem replica_serves_behind_broken_link :
    let server := start (.replica ⟨"host", 6379⟩) "own"
    let content := Bytes.ofText "+PONG\r\n+OK\r\n+OK\r\n+FULLRESYNC id 0\r\n" ++
      Snapshot.encode Snapshot.empty ++ (Value.ofWords ["SET", "foo", "bar"]).encode ++
      (Value.ofWords ["REPLCONF", "GETACK", "*"]).encode ++ Bytes.ofText "!"
    let report := server.run 6380 (.sends content)
      [(Value.ofWords ["GET", "foo"]).encode ++ (Value.ofWords ["PSYNC", "?", "-1"]).encode]
    let greeted := (Setting.wire ⟨6380, [content], none, none, none⟩).handshake 6380
    greeted.1 = .ok (some "id") ∧ (∃ rest, Welcome content rest (some "id")) ∧
      report.toPrimary = Greeting.bytes 6380 ++ (Value.ofWords ["REPLCONF", "ACK", "31"]).encode ∧
      report.sessions.toOption = some [Bytes.ofText "$3\r\nbar\r\n+FULLRESYNC id 0\r\n" ++
        Snapshot.encode Snapshot.empty] := by
  intro server content report greeted
  have shaken : greeted.1 = .ok (some "id") := by decide +kernel
  obtain ⟨_, completes⟩ := replica_runs_to_its_end ⟨"host", 6379⟩ "own" 0 .none 6380 content
    [(Value.ofWords ["GET", "foo"]).encode ++ (Value.ofWords ["PSYNC", "?", "-1"]).encode]
  obtain ⟨rest, welcome, _⟩ := completes (some "id") shaken
  exact ⟨shaken, ⟨rest, welcome⟩, by decide +kernel, by decide +kernel⟩

end Server

end RespKeyspace
