import RespKeyspace.Proofs.Reader.Arrival
import RespKeyspace.Proofs.Session.Grounded

/-! What a client is to see: its values are executed one by one, and each gives the
frames that answer it. The connection that is really served shows the same. -/

namespace RespKeyspace

namespace Server

/-- What values of a client lead to: the frames it is sent, whether its connection goes
on, and the server. -/
structure Course where
  sent : List Frame
  goesOn : Bool
  server : Server

/-- A client that is fed itself gets a copy of what it assigns. -/
def ownCopy (server : Server) (client : Client) (value : Value) : List Frame :=
  match value.write? with
  | some assignment =>
    if server.replica? client.address = some client.outbox then [.value assignment.toValue] else []
  | none => []

/-- What one value of a client leads to. A fatal refusal is not answered. -/
def answer (now : Nat) (client : Client) (value : Value) (server : Server) : Course :=
  match server.serve now value with
  | (.ok .silent, after) => ⟨[], true, after⟩
  | (.ok (.reply reply), after) => ⟨server.ownCopy client value ++ [.value reply], true, after⟩
  | (.ok (.sync announcement), after) =>
    ⟨[.value announcement, .snapshot Snapshot.empty], true,
      after.register client.address client.outbox⟩
  | (.error refusal, after) =>
    if refusal.isFatal then ⟨[], false, after⟩ else ⟨[.value refusal.reply], true, after⟩

/-- What values of a client lead to, one after the other, up to a fatal refusal. -/
def course (now : Nat) (client : Client) : List Value → Server → Course
  | [], server => ⟨[], true, server⟩
  | value :: rest, server =>
    let first := answer now client value server
    if first.goesOn then
      let later := course now client rest first.server
      ⟨first.sent ++ later.sent, later.goesOn, later.server⟩
    else first

/-- What all the bytes of a client lead to. The connection is over at a fatal refusal, at
bytes that are no value, or when the client ends, and then the client is fed no longer. -/
def served (server : Server) (now : Nat) (client : Client) (bytes : Bytes) (finished : Bool) :
    Course :=
  let held := Value.decoded bytes
  let course := course now client held.values server
  if course.goesOn = true ∧ held.fault? = none ∧ finished = false then course
  else ⟨course.sent, false, course.server.deregister client.address⟩

/-- Two servers that differ in the frames of one outbox at most. -/
structure AgreeBut (box : OutboxId) (actual reference : Server) : Prop where
  role : actual.role = reference.role
  replicationId : actual.replicationId = reference.replicationId
  offset : actual.offset = reference.offset
  keys : actual.keys = reference.keys
  next : actual.outboxes.next = reference.outboxes.next
  isOpen : ∀ other, actual.outboxes.isOpen other = reference.outboxes.isOpen other
  frames : ∀ other, other ≠ box → actual.outboxes.frames other = reference.outboxes.frames other

namespace AgreeBut

variable {box : OutboxId} {actual reference : Server}

theorem refl (box : OutboxId) (server : Server) : AgreeBut box server server :=
  ⟨rfl, rfl, rfl, rfl, rfl, fun _ => rfl, fun _ _ => rfl⟩

theorem replica? (agree : AgreeBut box actual reference) (address : String) :
    actual.replica? address = reference.replica? address := by
  unfold Server.replica?
  rw [agree.role]

theorem push (agree : AgreeBut box actual reference) (frame : Frame) :
    AgreeBut box (actual.push box frame) reference where
  role := agree.role
  replicationId := agree.replicationId
  offset := agree.offset
  keys := agree.keys
  next := (actual.outboxes.next_push box frame).trans agree.next
  isOpen other := (actual.outboxes.isOpen_push box other frame).trans (agree.isOpen other)
  frames other differ :=
    (actual.outboxes.frames_push_of_ne box other frame (Ne.symm differ)).trans
      (agree.frames other differ)

theorem mapRegistry (agree : AgreeBut box actual reference) (change : Registry → Registry) :
    AgreeBut box { actual with role := actual.role.mapRegistry change }
      { reference with role := reference.role.mapRegistry change } where
  role := congrArg (Role.mapRegistry change) agree.role
  replicationId := agree.replicationId
  offset := agree.offset
  keys := agree.keys
  next := agree.next
  isOpen := agree.isOpen
  frames := agree.frames

private theorem hasLiveReplica_iff (agree : AgreeBut box actual reference) :
    actual.HasLiveReplica ↔ reference.HasLiveReplica := by
  unfold HasLiveReplica
  simp only [agree.replica?, agree.isOpen]

private theorem places (agree : AgreeBut box actual reference) (other : OutboxId) :
    actual.places other = reference.places other := by
  unfold Server.places
  rw [agree.role]

theorem assign (agree : AgreeBut box actual reference) (now : Nat) (assignment : Assignment) :
    AgreeBut box (actual.assign now assignment) (reference.assign now assignment) where
  role := by
    simp only [Server.assign, role_propagate, agree.role, funext agree.isOpen]
  replicationId := by simp [Server.assign, agree.replicationId]
  offset := by
    by_cases live : reference.HasLiveReplica
    · rw [offset_assign_of_live _ _ _ live,
        offset_assign_of_live _ _ _ (agree.hasLiveReplica_iff.mpr live), agree.offset]
    · rw [offset_assign_of_not_live _ _ _ live,
        offset_assign_of_not_live _ _ _ ((not_congr agree.hasLiveReplica_iff).mpr live), agree.offset]
  keys := by simp [agree.keys]
  next := by simp [agree.next]
  isOpen other := by simp [agree.isOpen]
  frames other differ := by
    rw [frames_assign, frames_assign, agree.frames other differ, agree.isOpen, agree.places]

theorem perform (agree : AgreeBut box actual reference) (now : Nat) (command : Command) :
    (actual.perform now command).1 = (reference.perform now command).1 ∧
      AgreeBut box (actual.perform now command).2 (reference.perform now command).2 := by
  cases command with
  | ping => exact ⟨rfl, agree⟩
  | echo content => exact ⟨rfl, agree⟩
  | get key =>
    refine ⟨?_, ?_⟩
    · simp [Server.perform, agree.keys]
    · exact { agree with keys := by simp [Server.perform, agree.keys] }
  | set assignment => exact ⟨rfl, agree.assign now assignment⟩
  | info =>
    refine ⟨?_, agree⟩
    simp [Server.perform, replicationReport, replicationFields, agree.role, agree.replicationId,
      agree.offset]
  | replconf asksOffset => exact ⟨rfl, agree⟩
  | psync => exact ⟨by simp [Server.perform, resyncAnnouncement, agree.replicationId], agree⟩

theorem serve (agree : AgreeBut box actual reference) (now : Nat) (value : Value) :
    (actual.serve now value).1 = (reference.serve now value).1 ∧
      AgreeBut box (actual.serve now value).2 (reference.serve now value).2 := by
  rw [serve_eq, serve_eq]
  cases value.command with
  | error refusal => exact ⟨rfl, agree⟩
  | ok command =>
    obtain ⟨outcome, after⟩ := agree.perform now command
    exact ⟨by simp [outcome], after⟩

end AgreeBut

/-- A server that really serves a client, and one that only keeps the course: the client
has been sent what it is to see, and it is the only one fed through its outbox. -/
structure Serves (client : Client) (sent : List Frame) (actual reference : Server) : Prop where
  agree : AgreeBut client.outbox actual reference
  opened : actual.outboxes.isOpen client.outbox = true
  sole : ∀ address, actual.replica? address = some client.outbox → address = client.address
  frames : actual.outboxes.frames client.outbox = sent

namespace Serves

variable {client : Client} {sent : List Frame} {actual reference : Server}

theorem push (serves : Serves client sent actual reference) (frame : Frame) :
    Serves client (sent ++ [frame]) (actual.push client.outbox frame) reference where
  agree := serves.agree.push frame
  opened := (actual.outboxes.isOpen_push _ _ frame).trans serves.opened
  sole := serves.sole
  frames := by
    rw [Server.push, Outboxes.frames_push_self _ _ _ serves.opened, serves.frames]

theorem register (serves : Serves client sent actual reference) :
    Serves client sent (actual.register client.address client.outbox)
      (reference.register client.address client.outbox) where
  agree := serves.agree.mapRegistry _
  opened := serves.opened
  sole address found := by
    rw [replica?_register] at found
    split at found
    · rename_i here
      exact here.2
    · exact serves.sole address found
  frames := serves.frames

theorem serve (serves : Serves client sent actual reference) (now : Nat) (value : Value) :
    Serves client (sent ++ reference.ownCopy client value) (actual.serve now value).2
      (reference.serve now value).2 := by
  have agree := (serves.agree.serve now value).2
  have same := serves.agree.replica? client.address
  rcases actual.serve_cases now value with ⟨assignment, asked, done⟩ | ⟨quiet, keys, done⟩
  · rw [done] at agree ⊢
    refine ⟨agree, ?_, ?_, ?_⟩
    · simpa using serves.opened
    · intro address found
      rw [replica?_assign] at found
      exact serves.sole address (Option.filter_eq_some_iff.mp found).1
    · rw [frames_assign, if_pos serves.opened, serves.frames]
      unfold ownCopy
      rw [asked, ← same]
      dsimp only
      split
      · rename_i fed
        rw [places_of_sole fed serves.sole, List.replicate_one]
      · rename_i unfed
        rw [places_of_absent, List.replicate_zero]
        intro other found
        have here := serves.sole other found
        exact unfed (here ▸ found)
  · rw [done] at agree ⊢
    refine ⟨agree, serves.opened, serves.sole, ?_⟩
    simpa [ownCopy, quiet] using serves.frames

private theorem ownCopy_of_no_reply (reference : Server) (client : Client) (now : Nat) (value : Value)
    (other : ∀ reply, (reference.serve now value).1 ≠ .ok (.reply reply)) :
    reference.ownCopy client value = [] := by
  rcases reference.serve_cases now value with ⟨assignment, _, done⟩ | ⟨quiet, _⟩
  · exact (other (.simple "OK") (by rw [done])).elim
  · simp [ownCopy, quiet]

/-- One value: whether the connection goes on and all that is sent are as in its answer. -/
theorem step (serves : Serves client sent actual reference) (now : Nat) (value : Value) :
    (serveOne now client value actual).1 = (answer now client value reference).goesOn ∧
      Serves client (sent ++ (answer now client value reference).sent)
        (serveOne now client value actual).2 (answer now client value reference).server := by
  have result := (serves.agree.serve now value).1
  have served := serves.serve now value
  have unfed := ownCopy_of_no_reply reference client now value
  unfold serveOne answer
  cases done : actual.serve now value with
  | mk outcome after =>
  cases expected : reference.serve now value with
  | mk outcome' after' =>
  rw [done, expected] at result served
  rw [expected] at unfed
  dsimp only at result served unfed
  subst result
  cases outcome with
  | error refusal =>
    rw [unfed (by simp), List.append_nil] at served
    cases fatal : refusal.isFatal with
    | true => simpa [fatal] using served
    | false => simpa [fatal] using served.push (.value refusal.reply)
  | ok outcome =>
    cases outcome with
    | silent =>
      rw [unfed (by simp)] at served
      exact ⟨rfl, served⟩
    | reply reply =>
      refine ⟨rfl, ?_⟩
      simpa [deliver] using served.push (.value reply)
    | sync announcement =>
      rw [unfed (by simp), List.append_nil] at served
      refine ⟨rfl, ?_⟩
      simpa [deliver] using ((served.push (.value announcement)).push (.snapshot Snapshot.empty)).register

theorem run (serves : Serves client sent actual reference) (now : Nat) (values : List Value) :
    (runUntil (serveOne now client) values actual).1 = (course now client values reference).goesOn ∧
      Serves client (sent ++ (course now client values reference).sent)
        (runUntil (serveOne now client) values actual).2 (course now client values reference).server := by
  induction values generalizing sent actual reference with
  | nil => exact ⟨rfl, by simpa [course, runUntil] using serves⟩
  | cons value rest ih =>
    obtain ⟨goesOn, after⟩ := serves.step now value
    rw [runUntil, course]
    cases first : serveOne now client value actual with
    | mk more next =>
    rw [first] at goesOn after
    dsimp only at goesOn after ⊢
    subst goesOn
    cases more : (answer now client value reference).goesOn with
    | true => simpa using ih after
    | false => simpa [more] using after

end Serves

private theorem serves_create {server : Server} (grounded : server.Grounded) (address : String) :
    let opened := { server with outboxes := server.outboxes.create }
    Serves ⟨address, server.outboxes.next⟩ [] opened opened where
  agree := .refl _ _
  opened := server.outboxes.isOpen_create_next
  sole other found := absurd (grounded other _ found) (Nat.lt_irrefl _)
  frames := (server.outboxes.frames_create _).trans server.outboxes.frames_next

private theorem served_finished (server : Server) (now : Nat) (client : Client) (bytes : Bytes) :
    server.served now client bytes true =
      let staying := server.served now client bytes false
      if staying.goesOn = true then
        ⟨staying.sent, false, staying.server.deregister client.address⟩
      else staying := by
  unfold served
  dsimp only
  by_cases goesOn : (course now client (Value.decoded bytes).values server).goesOn = true ∧
      (Value.decoded bytes).fault? = none
  · simp [goesOn]
  · have closed : ¬ ((course now client (Value.decoded bytes).values server).goesOn = true ∧
        (Value.decoded bytes).fault? = none ∧ false = false) := fun all => goesOn ⟨all.1, all.2.1⟩
    rw [if_neg closed, if_neg (by simp)]
    simp

private theorem replica?_served_of_closed {server : Server} {now : Nat} {client : Client}
    {bytes : Bytes}
    {finished : Bool} (closed : (server.served now client bytes finished).goesOn = false) :
    (server.served now client bytes finished).server.replica? client.address = none := by
  unfold served at closed ⊢
  dsimp only at closed ⊢
  split
  · rename_i goesOn
    rw [if_pos goesOn, goesOn.1] at closed
    cases closed
  · simp

end Server

namespace Connection

/-- A client's connection comes to what the client's bytes lead to. -/
theorem receive_served (connection : Connection) (isClient : connection.kind = .client)
    {actual reference : Server} (serves : Server.Serves connection.client [] actual reference)
    (now : Nat) (bytes : Bytes) :
    let expected := reference.served now connection.client bytes false
    (connection.receive now bytes actual).1 =
        (if expected.goesOn = true then some (Value.decoded bytes).rest else none) ∧
      Server.AgreeBut connection.outbox (connection.receive now bytes actual).2 expected.server ∧
      (connection.receive now bytes actual).2.outboxes.frames connection.outbox = expected.sent := by
  obtain ⟨goesOn, after⟩ := serves.run now (Value.decoded bytes).values
  rw [receive_eq]
  unfold Server.settle execute finish Server.served
  simp only [isClient, goesOn, and_true]
  split
  · rename_i stays
    simp only [stays]
    exact ⟨rfl, after.agree, after.frames⟩
  · exact ⟨rfl, after.agree.mapRegistry _, after.frames⟩

end Connection

namespace Network

/-- A network in which a connection has come to what a course leads to, with `rest` kept
for later if it goes on. -/
structure Shows (network : Network) (name : String) (box : OutboxId) (course : Server.Course)
    (rest : Bytes) : Prop where
  found : network.find? name =
    some ⟨name, .client, box, if course.goesOn = true then some rest else none⟩
  agree : Server.AgreeBut box network.server course.server
  frames : network.server.outboxes.frames box = course.sent

theorem shows_openConnection {network : Network} (grounded : network.server.Grounded)
    (name : String) (bytes : Bytes) :
    Shows (network.openConnection name .client bytes) name network.server.outboxes.next
      (Server.served { network.server with outboxes := network.server.outboxes.create } network.now
        ⟨name, network.server.outboxes.next⟩ bytes false)
      (Value.decoded bytes).rest := by
  obtain ⟨pending, agree, frames⟩ := Connection.receive_served
    ⟨name, .client, network.server.outboxes.next, none⟩ rfl
    (Server.serves_create grounded name) network.now bytes
  refine ⟨?_, agree, frames⟩
  rw [find?_openConnection, pending]
  rfl

private theorem Shows.finish {network : Network} {server : Server} {now : Nat} {name : String}
    {box : OutboxId} {bytes rest : Bytes}
    (shown : Shows network name box (server.served now ⟨name, box⟩ bytes false) rest) :
    Shows (network.finish name) name box (server.served now ⟨name, box⟩ bytes true) rest := by
  obtain ⟨found, agree, frames⟩ := shown
  unfold Network.finish
  rw [Server.served_finished, found]
  cases goesOn : (server.served now ⟨name, box⟩ bytes false).goesOn with
  | true =>
    simp only [Connection.isOpen, goesOn, if_true, Option.isSome_some]
    have changed := find?_updateNamed ({ · with pending := none }) rfl found
    refine ⟨?_, agree.mapRegistry _, frames⟩
    simpa [find?] using changed
  | false =>
    simp only [Connection.isOpen, goesOn, Bool.false_eq_true, if_false, Option.isSome_none]
    refine ⟨?_, agree, frames⟩
    simpa [goesOn] using found

/-- A client connects, sends chunks, and ends or stays. -/
def visit (network : Network) (name : String) (chunks : List Bytes) (finished : Bool) : Network :=
  let sent := (network.step (.openClient name)).sendAll name chunks
  if finished then sent.step (.finish name) else sent

/-- However the bytes of a client are cut into chunks, it is sent, and the server comes to,
what its values lead to when they are executed one at a time; and the connection is closed,
and fed no longer, if and only if the reference says so. -/
theorem visit_follows_course (network : Network) (grounded : network.server.Grounded)
    (name : String) (bytes : Bytes) (arrival : Arrival bytes) (finished : Bool) :
    let box := network.server.outboxes.next
    let reference := Server.served { network.server with outboxes := network.server.outboxes.create }
      network.now ⟨name, box⟩ bytes finished
    let after := network.visit name arrival.chunks finished
    ∃ connection, after.find? name = some connection ∧ connection.outbox = box ∧
      after.queuedFor connection = reference.sent.flatMap Frame.encode ∧
      Server.AgreeBut box after.server reference.server ∧
      connection.pending = (if reference.goesOn = true then some (Value.decoded bytes).rest else none) ∧
      (connection.isOpen = false → after.server.replica? name = none) := by
  intro box reference after
  have sent : (network.step (.openClient name)).sendAll name arrival.chunks =
      network.openConnection name .client bytes := by
    rw [step, sendAll_openConnection, arrival.whole]
    simp
  have shown : Shows after name box reference (Value.decoded bytes).rest := by
    have stays := shows_openConnection grounded name bytes
    unfold after reference visit
    rw [sent]
    cases finished with
    | false => exact stays
    | true => exact stays.finish
  refine ⟨_, shown.found, rfl, congrArg (List.flatMap Frame.encode) shown.frames, shown.agree, rfl, ?_⟩
  intro closed
  rw [shown.agree.replica?]
  have ended : reference.goesOn = false := by
    cases goesOn : reference.goesOn with
    | false => rfl
    | true => simp [Connection.isOpen, goesOn] at closed
  exact Server.replica?_served_of_closed ended

/-- A client that asks for a copy in two pieces is fed what it then assigns, before the reply. -/
theorem synced_client_sees_own_write :
    let network := start (Server.start (.primary .empty) "id")
    let chunks := [Bytes.ofText "*1\r\n$5\r\nPSYNC\r",
      Bytes.ofText "\n*3\r\n$3\r\nSET\r\n$1\r\nk\r\n$1\r\nv\r\n"]
    network.server.Grounded ∧
      ∃ connection, (network.visit "client" chunks false).find? "client" = some connection ∧
        (network.visit "client" chunks false).queuedFor connection =
          List.flatMap Frame.encode [.value (.simple "FULLRESYNC id 0"), .snapshot Snapshot.empty,
            .value (.ofWords ["SET", "k", "v"]), .value (.simple "OK")] := by
  intro network chunks
  have grounded : network.server.Grounded := by
    intro address box found
    cases found
  have nonempty : ∀ chunk ∈ chunks, chunk ≠ [] := by decide
  obtain ⟨connection, found, _, sent, _⟩ := visit_follows_course network grounded "client"
    chunks.flatten ⟨chunks, nonempty, rfl⟩ false
  refine ⟨grounded, connection, found, sent.trans (congrArg (List.flatMap Frame.encode) ?_)⟩
  decide +kernel

end Network

end RespKeyspace
