import RespKeyspace.Proofs.Link.Dialogue
import RespKeyspace.Proofs.Link.Replication
import RespKeyspace.Proofs.Reader.Words
import RespKeyspace.Proofs.Serving.Report
import RespKeyspace.Proofs.Session.Framing
import RespKeyspace.Service

/-! The replication id on its way from server to server. A primary announces its own one, a replica
adopts what it reads, and it announces that in turn. What is read is always a word, and a word is
read as it was announced, so from the first replica on nothing happens to an id. -/

namespace RespKeyspace

namespace Value

/-- Whatever a reply says, the id in it is a word. -/
theorem isWord_of_announcedId? {reply : Value} {id : String} (found : reply.announcedId? = some id) :
    Text.IsWord id := by
  obtain ⟨text, keyword, more, rfl, words, _⟩ := announcedId?_eq_some_iff.mp found
  exact Text.isWord_of_mem_words (words ▸ List.mem_cons_of_mem _ List.mem_cons_self)

end Value

namespace Wire

private theorem exists_announcement_of_handshake {wire later : Wire} {port : Nat} {id : String}
    (shaken : wire.handshake port = (.ok (some id), later)) :
    ∃ reply : Value, reply.announcedId? = some id := by
  unfold handshake at shaken
  split at shaken
  · cases shaken
  split at shaken
  · cases shaken
  rename_i reply _ _
  split at shaken
  · cases shaken
  rename_i announced found
  split at shaken
  · cases shaken
  · cases shaken
    exact ⟨reply, found⟩

end Wire

namespace Server

variable {server : Server} {now : Nat} {value : Value}

private theorem serve_psync (asked : value.command = .ok .psync) :
    server.serve now value = (.ok (.sync server.resyncAnnouncement), server) :=
  serve_of_ok server now asked

/-- An announcement is read as the id that was announced exactly if that is a word. -/
theorem announcement_reads_back_iff (rest : Bytes) :
    (∃ reply, Value.read (server.resyncAnnouncement.encode ++ rest) = .value reply rest ∧
      reply.announcedId? = some server.replicationId) ↔ Text.IsWord server.replicationId := by
  constructor
  · rintro ⟨reply, _, found⟩
    exact Value.isWord_of_announcedId? found
  · intro isWord
    exact ⟨_, Value.read_encode (wellFormed_resyncAnnouncement isWord) rest,
      announcedId?_resyncAnnouncement isWord⟩

/-- Servers whose replication id goes back to an announcement of `id`: a replica that adopted it from
some peer, and a replica that adopted what it read of the announcement of such a server. Either has
been at work since. -/
inductive Inherits (id : String) : Server → Prop where
  | adopted {wire later : Wire} {port : Nat} {replica : Server} {steps : List Network.Step}
      (shaken : wire.handshake port = (.ok (some id), later)) :
      Inherits id ((Network.start (replica.adopt (some id))).run steps).server
  | passed {upstream replica : Server} {now port : Nat} {request announcement : Value}
      {answers : List Value} {payload rest : Bytes} {wire later : Wire} {failure : Option String}
      {found : Option String} {steps : List Network.Step} (earlier : Inherits id upstream)
      (asked : request.command = .ok .psync)
      (announces : (upstream.serve now request).1 = .ok (.sync announcement))
      (greeted : answers.length = Greeting.preliminaries.length)
      (formed : ∀ answer ∈ answers, answer.WellFormed Value.maxDepth)
      (short : payload.length ≤ Value.maxBulkLength)
      (delivers : wire.Delivers (answers.flatMap Value.encode ++
        (announcement.encode ++ (Snapshot.encode payload ++ rest))) failure)
      (shaken : wire.handshake port = (.ok found, later)) :
      Inherits id ((Network.start (replica.adopt found)).run steps).server

private theorem replicationId_run (server : Server) (steps : List Network.Step) :
    ((Network.start server).run steps).server.replicationId = server.replicationId :=
  ((Network.keeps_replicationId server.replicationId).run (⟨rfl, by simp⟩ :
    (Network.start server).server.replicationId = server.replicationId ∧ ∀ event ∈ [], _) steps).1

theorem Inherits.replicationId {id : String} (inherits : Inherits id server) :
    server.replicationId = id ∧ Text.IsWord id := by
  induction inherits with
  | adopted shaken =>
    obtain ⟨reply, found⟩ := Wire.exists_announcement_of_handshake shaken
    exact ⟨replicationId_run _ _, Value.isWord_of_announcedId? found⟩
  | @passed upstream replica now port request announcement answers payload rest wire later failure
      found steps _ asked announces greeted formed short delivers shaken ih =>
    obtain ⟨rfl, isWord⟩ := ih
    rw [serve_psync asked] at announces
    cases announces
    obtain ⟨_, read, _⟩ := Wire.handshake_of_delivers port greeted formed
      (wellFormed_resyncAnnouncement isWord) (announcedId?_resyncAnnouncement isWord) short delivers
    cases shaken.symm.trans read
    exact ⟨replicationId_run _ steps, isWord⟩

/-- An announced id is read back, with all that follows left, exactly if it is a word; whatever a
peer announces, nothing else is ever read. So an id that some replica adopted is the id of every
replica behind it, which announces it and reports it as it was, on a line of the report. -/
theorem adopted_id_is_passed_on :
    (∀ (server : Server) now request, request.command = .ok .psync →
      ∃ announcement, (server.serve now request).1 = .ok (.sync announcement) ∧ ∀ rest,
        (∃ reply, Value.read (announcement.encode ++ rest) = .value reply rest ∧
          reply.announcedId? = some server.replicationId) ↔ Text.IsWord server.replicationId) ∧
    (∀ (reply : Value) id, reply.announcedId? = some id → Text.IsWord id) ∧
    ∀ (server : Server) id, server.Inherits id →
      server.replicationId = id ∧ Text.IsWord id ∧
      ("master_replid", id) ∈ server.replicationFields ∧
      Text.HasLine ("master_replid:" ++ id) server.replicationReport ∧
      ∀ now request,
        (request.command = .ok .psync → ∃ announcement,
          (server.serve now request).1 = .ok (.sync announcement) ∧ ∀ rest, ∃ reply,
            Value.read (announcement.encode ++ rest) = .value reply rest ∧
            reply.announcedId? = some id) ∧
        (request.command = .ok .info →
          (server.serve now request).1 =
            .ok (.reply (.bulk (Bytes.ofText server.replicationReport)))) := by
  refine ⟨?_, fun reply id => Value.isWord_of_announcedId?, ?_⟩
  · intro server now request asked
    exact ⟨server.resyncAnnouncement, by rw [serve_psync asked], announcement_reads_back_iff⟩
  · intro server id inherits
    obtain ⟨rfl, isWord⟩ := inherits.replicationId
    refine ⟨rfl, isWord, by simp [replicationFields], hasLine_replicationId server, ?_⟩
    refine fun now request => ⟨?_, ?_⟩
    · intro asked
      exact ⟨server.resyncAnnouncement, by rw [serve_psync asked],
        fun rest => (announcement_reads_back_iff rest).mpr isWord⟩
    · intro asked
      rw [serve_of_ok server now asked]
      rfl

/-- A replica reads an id in an announcement spelled its own way, and the replica behind it, to which
it announces the id once it has served a client, announces the same. -/
theorem second_replica_announces_first_id :
    let first := Server.start (.replica ⟨"host", 6379⟩) "one"
    let second := Server.start (.replica ⟨"host", 6380⟩) "two"
    let peer := Bytes.ofText "+PONG\r\n+OK\r\n+OK\r\n+  FullResync\tid ?\r\n$0\r\n"
    let heard : Wire := { incoming := ⟨[], [peer], none⟩ }
    let upstream := ((Network.start (first.adopt (some "id"))).run [.openClient "client"]).server
    let request := Value.ofWords ["PSYNC", "?", "-1"]
    let announcement : Value := .simple "FULLRESYNC id 0"
    let answers := [Value.simple "PONG", .simple "OK", .simple "OK"].flatMap Value.encode
    let passed := answers ++ (announcement.encode ++ (Snapshot.encode Snapshot.empty ++ []))
    let told : Wire := { incoming := ⟨[], [passed], none⟩ }
    let last := ((Network.start (second.adopt (some "id"))).run []).server
    (heard.handshake 6380).1.toOption = some (some "id") ∧
      (upstream.serve 0 request).1 = .ok (.sync announcement) ∧
      (told.handshake 6381).1.toOption = some (some "id") ∧
      last.Inherits "id" ∧ (last.serve 0 request).1 = .ok (.sync announcement) := by
  intro first second peer heard upstream request announcement answers passed told last
  have asked : request.command = .ok .psync := Value.command_ofParts [_, _] (by decide)
  have resync : ∀ server : Server, server.replicationId = "id" →
      (server.serve 0 request).1 = .ok (.sync announcement) := by
    intro server same
    rw [serve_psync asked, resyncAnnouncement, same]
    rfl
  have shaken : ∀ {wire : Wire} {port : Nat} {id : Option String},
      (wire.handshake port).1.toOption = some id → ∃ later, wire.handshake port = (.ok id, later) := by
    intro wire port id read
    cases result : (wire.handshake port).1 with
    | error fault => simp [result, Except.toOption] at read
    | ok found =>
      rw [result] at read
      cases read
      exact ⟨_, Prod.ext result rfl⟩
  have heardId : (heard.handshake 6380).1.toOption = some (some "id") := by decide +kernel
  have toldId : (told.handshake 6381).1.toOption = some (some "id") := by decide +kernel
  have heir : upstream.Inherits "id" := (shaken heardId).elim fun _ => .adopted
  have answered := resync upstream (adopted_id_is_passed_on.2.2 upstream "id" heir).1
  have delivers : told.Delivers passed none :=
    ⟨rfl, rfl, ⟨by simp [told, Incoming.bytes], by decide +kernel, rfl⟩⟩
  have last : last.Inherits "id" := by
    obtain ⟨later, read⟩ := shaken toldId
    exact .passed heir asked answered rfl Network.wellFormed_answers (by decide) delivers read
  exact ⟨heardId, answered, toldId, last, resync _ (adopted_id_is_passed_on.2.2 _ "id" last).1⟩

end Server

end RespKeyspace
