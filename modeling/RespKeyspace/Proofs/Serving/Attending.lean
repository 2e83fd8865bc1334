import RespKeyspace.Proofs.Serving.Turns
import RespKeyspace.Service

/-! The clients of a replica, one after the other. What each of them is sent is said without
connections, by the requests alone: a replica feeds nobody, so its queues make no difference. -/

namespace RespKeyspace

/-- Queues of which one got some more frames, and none was lost. -/
structure Outboxes.Gains (box : OutboxId) (added : List Frame) (before after : Outboxes) : Prop where
  isOpen : ∀ other, after.isOpen other = before.isOpen other
  frames : before.isOpen box = true → after.frames box = before.frames box ++ added

namespace Outboxes.Gains

variable {box : OutboxId} {first second : List Frame} {before between after : Outboxes}

theorem refl (box : OutboxId) (outboxes : Outboxes) : Gains box [] outboxes outboxes :=
  ⟨fun _ => rfl, fun _ => (List.append_nil _).symm⟩

theorem push (box : OutboxId) (frame : Frame) (outboxes : Outboxes) :
    Gains box [frame] outboxes (outboxes.push box frame) :=
  ⟨fun other => outboxes.isOpen_push box other frame, outboxes.frames_push_self box frame⟩

theorem append (one : Gains box first before between) (other : Gains box second between after) :
    Gains box (first ++ second) before after where
  isOpen box := (other.isOpen box).trans (one.isOpen box)
  frames opened := by
    rw [other.frames ((one.isOpen box).trans opened), one.frames opened, List.append_assoc]

end Outboxes.Gains

namespace Value

/-- The requests that a client's bytes hold, up to one that ends the connection. -/
def requests (bytes : Bytes) : List Value :=
  (decoded bytes).values.takeWhile fun value => !value.isFatal

end Value

namespace Server

variable {server : Server} (now : Nat)

/-- A replica executes a request whatever its queues are, and changes its keys at most. -/
theorem serve_of_replica (replica : server.role.isPrimary = false) (value : Value)
    (outboxes : Outboxes) :
    serve { server with outboxes } now value =
      ((server.serve now value).1,
        { server with keys := value.apply now server.keys, outboxes }) := by
  cases asked : value.command with
  | error refusal =>
    rw [serve_of_error _ _ asked, serve_of_error _ _ asked]
    simp [Value.apply, asked]
  | ok command =>
    rw [serve_of_ok _ _ asked, serve_of_ok _ _ asked]
    cases command with
    | set assignment =>
      simp only [perform, assign, Value.apply, asked]
      rw [propagate_of_replica]
      exact replica
    | _ => simp [perform, Value.apply, asked, resyncAnnouncement, replicationReport, replicationFields]

theorem serve_snd_of_replica (replica : server.role.isPrimary = false) (value : Value) :
    (server.serve now value).2 = { server with keys := value.apply now server.keys } :=
  congrArg Prod.snd (serve_of_replica now replica value server.outboxes)

theorem register_of_replica (replica : server.role.isPrimary = false) (address : String)
    (box : OutboxId) : server.register address box = server := by
  obtain ⟨role, replicationId, offset, keys, outboxes⟩ := server
  cases role with
  | primary replicas => cases replica
  | replica followed => rfl

theorem serveOne_of_replica (replica : server.role.isPrimary = false) (client : Client)
    (value : Value) (outboxes : Outboxes) :
    ∃ later, serveOne now client value { server with outboxes } =
        (!value.isFatal, { (server.serve now value).2 with outboxes := later }) ∧
      Outboxes.Gains client.outbox
        ((Piece.ofOutcome? (server.serve now value).1).toList.flatMap Piece.frames) outboxes later := by
  rw [serveOne, serve_of_replica now replica, serve_snd_of_replica now replica]
  cases asked : value.command with
  | error refusal =>
    rw [serve_of_error _ _ asked]
    simp only [Value.isFatal, asked, Piece.ofOutcome?]
    cases refusal.isFatal with
    | true => exact ⟨outboxes, rfl, .refl _ _⟩
    | false => exact ⟨_, rfl, .push _ _ _⟩
  | ok command =>
    rw [serve_of_ok _ _ asked]
    simp only [Value.isFatal, asked]
    cases command with
    | psync =>
      refine ⟨_, Prod.ext rfl (register_of_replica ?_ _ _), (Outboxes.Gains.push _ _ _).append (.push _ _ _)⟩
      exact replica
    | _ => exact ⟨_, rfl, .push _ _ _⟩

def turnsOf (values : List Value) : List (Turn Unit) := values.map fun value => ⟨(), now, value⟩

def answers (results : List (Unit × Except Refusal Outcome)) : List Piece :=
  results.filterMap fun result => Piece.ofOutcome? result.2

theorem runUntil_serveOne (replica : server.role.isPrimary = false) (client : Client)
    (values : List Value) (outboxes : Outboxes) :
    let ran := server.serveAll (turnsOf now (values.takeWhile fun value => !value.isFatal))
    ∃ later, (runUntil (serveOne now client) values { server with outboxes }).2 =
        { ran.2 with outboxes := later } ∧
      Outboxes.Gains client.outbox ((answers ran.1).flatMap Piece.frames) outboxes later := by
  induction values generalizing server outboxes with
  | nil => exact ⟨outboxes, rfl, .refl _ _⟩
  | cons value rest ih =>
    obtain ⟨between, served, gained⟩ := serveOne_of_replica now replica client value outboxes
    rw [runUntil, served]
    cases fatal : value.isFatal with
    | true =>
      obtain ⟨refusal, refused, ends⟩ := Value.isFatal_iff.mp fatal
      rw [serve_of_error _ _ refused] at gained ⊢
      refine ⟨between, by simp [fatal, turnsOf, serveAll], ?_⟩
      simpa [fatal, Piece.ofOutcome?, ends, turnsOf, serveAll, answers] using gained
    | false =>
      have still : (server.serve now value).2.role.isPrimary = false := by
        rw [serve_snd_of_replica now replica]
        exact replica
      obtain ⟨later, ended, more⟩ := ih still between
      have whole := gained.append more
      rw [← List.flatMap_append] at whole
      refine ⟨later, ?_, ?_⟩
      · simpa [fatal, turnsOf, serveAll_cons] using ended
      · cases answered : Piece.ofOutcome? (server.serve now value).1 <;>
          simpa [fatal, turnsOf, serveAll_cons, answers, answered] using whole

/-- One client: what it is sent for all its bytes, and the server behind it. -/
def attend (server : Server) (now : Nat) (content : Bytes) : Bytes × Server :=
  let ran := server.serveAll (turnsOf now (Value.requests content))
  ((answers ran.1).flatMap Piece.encode, ran.2)

/-- Clients one after the other: what each of them is sent. -/
def attendAll (server : Server) (now : Nat) : List Bytes → List Bytes
  | [] => []
  | content :: rest =>
    let (replies, after) := server.attend now content
    replies :: after.attendAll now rest

theorem serveAll_of_replica (replica : server.role.isPrimary = false) {Label : Type}
    (turns : List (Turn Label)) :
    (∃ keys, (server.serveAll turns).2 = { server with keys }) ∧
      ∀ (place : Nat) (turn : Turn Label), turns[place]? = some turn → ∃ keys,
        (server.serveAll turns).1[place]? =
          some (turn.label, (serve { server with keys } turn.now turn.value).1) := by
  induction turns generalizing server with
  | nil => exact ⟨⟨server.keys, rfl⟩, by simp⟩
  | cons first rest ih =>
    have after := serve_snd_of_replica first.now replica first.value
    have still : (server.serve first.now first.value).2.role.isPrimary = false := by
      rw [after]
      exact replica
    obtain ⟨⟨last, ended⟩, behind⟩ := ih still
    rw [serveAll_cons]
    refine ⟨⟨last, by rw [ended, after]⟩, ?_⟩
    intro place turn found
    cases place with
    | zero =>
      obtain rfl : first = turn := by simpa using found
      exact ⟨server.keys, rfl⟩
    | succ place =>
      obtain ⟨keys, result⟩ := behind place turn (by simpa using found)
      rw [after] at result
      exact ⟨keys, by simpa [after] using result⟩

/-- Whatever else clients ask for, a replica reports one role, one replication id and one offset. -/
theorem reports_of_replica (replica : server.role.isPrimary = false) {Label : Type}
    {turns : List (Turn Label)} {place : Nat} {turn : Turn Label} (found : turns[place]? = some turn) :
    (turn.value.command = .ok .info → (server.serveAll turns).1[place]? =
      some (turn.label, .ok (.reply (.bulk (Bytes.ofText server.replicationReport))))) ∧
    (turn.value.command = .ok .psync → (server.serveAll turns).1[place]? =
      some (turn.label, .ok (.sync server.resyncAnnouncement))) := by
  obtain ⟨keys, result⟩ := (serveAll_of_replica replica turns).2 place turn found
  rw [result]
  constructor
  · intro asked
    rw [serve_of_ok _ _ asked]
    rfl
  · intro asked
    rw [serve_of_ok _ _ asked]
    rfl

theorem attendAll_of_replica (replica : server.role.isPrimary = false) {clients : List Bytes}
    {place : Nat} {content : Bytes} (found : clients[place]? = some content) :
    ∃ keys, (server.attendAll now clients)[place]? =
      some (attend { server with keys } now content).1 := by
  induction clients generalizing server place with
  | nil => simp at found
  | cons first rest ih =>
    cases place with
    | zero =>
      obtain rfl : first = content := by simpa using found
      exact ⟨server.keys, rfl⟩
    | succ place =>
      obtain ⟨keys, after⟩ := (serveAll_of_replica replica (turnsOf now (Value.requests first))).1
      have behind : (server.attend now first).2 = { server with keys } := after
      have still : (server.attend now first).2.role.isPrimary = false := by
        rw [behind]
        exact replica
      obtain ⟨later, replies⟩ := ih still (by simpa using found)
      rw [behind] at replies
      exact ⟨later, by simpa [attendAll, behind] using replies⟩

private theorem isPrimary_serveAll {Label : Type} (server : Server) (turns : List (Turn Label)) :
    (server.serveAll turns).2.role.isPrimary = server.role.isPrimary := by
  rw [(server.wrote_serveAll turns).role]
  split
  · rfl
  · unfold reached
    cases server.role <;> rfl

end Server

theorem Connection.finish_of_replica (connection : Connection) {server : Server}
    (replica : server.role.isPrimary = false) : connection.finish server = server := by
  obtain ⟨role, replicationId, offset, keys, outboxes⟩ := server
  unfold finish
  cases role with
  | primary replicas => cases replica
  | replica followed => cases connection.kind <;> rfl

theorem Connection.receive_of_replica {connection : Connection} (isClient : connection.kind = .client)
    {server : Server} (replica : server.role.isPrimary = false) (now : Nat) (content : Bytes)
    (outboxes : Outboxes) :
    ∃ later, (connection.receive now content { server with outboxes }).2 =
        { (server.attend now content).2 with outboxes := later } ∧
      Outboxes.Gains connection.outbox
        ((Server.answers (server.serveAll (Server.turnsOf now (Value.requests content))).1).flatMap
          Piece.frames) outboxes later := by
  obtain ⟨later, ran, gained⟩ := Server.runUntil_serveOne now replica connection.client
    (Value.decoded content).values outboxes
  let after : Server := { (server.attend now content).2 with outboxes := later }
  have still : after.role.isPrimary = false := (server.isPrimary_serveAll _).trans replica
  have settled : (Server.settle (connection.execute now) (Value.decoded content)
      { server with outboxes }).2 = after := by
    rw [Server.settle, execute, isClient]
    exact ran
  refine ⟨later, ?_, gained⟩
  rw [receive_eq]
  dsimp only
  rw [settled, connection.finish_of_replica still, ite_self]

namespace Network

variable {server : Server} {network : Network} {outboxes : Outboxes}

theorem finish_openConnection (network : Network) (name : String) (kind : ConnectionKind)
    (buffer : Bytes) :
    let connection : Connection := ⟨name, kind, network.server.outboxes.next, none⟩
    let received := connection.receive network.now buffer
      { network.server with outboxes := network.server.outboxes.create }
    connection.finish received.2 = received.2 →
      (network.openConnection name kind buffer).finish name =
        ⟨received.2, network.now, connection :: network.connections⟩ := by
  intro connection received nothing
  have opened : network.openConnection name kind buffer =
      ⟨received.2, network.now, { connection with pending := received.1 } :: network.connections⟩ := rfl
  have same : ({ connection with pending := received.1 } : Connection).finish received.2 = received.2 :=
    nothing
  rw [opened]
  simp only [connection] at same
  cases pending : received.1 with
  | none => simp [finish, find?, Connection.isOpen, connection]
  | some held =>
    rw [pending] at same
    simp [finish, find?, Connection.isOpen, updateNamed, connection, same]

theorem session_of_replica (replica : server.role.isPrimary = false)
    (same : network.server = { server with outboxes }) (content : Bytes) :
    (network.session content).1 = (server.attend network.now content).1 ∧
      (network.session content).2.now = network.now ∧
      ∃ later, (network.session content).2.server =
        { (server.attend network.now content).2 with outboxes := later } := by
  let connection : Connection := ⟨sessionName, .client, outboxes.next, none⟩
  obtain ⟨later, received, gained⟩ := Connection.receive_of_replica (by rfl : connection.kind = .client)
    replica network.now content outboxes.create
  let after : Server := { (server.attend network.now content).2 with outboxes := later }
  have still : after.role.isPrimary = false := (server.isPrimary_serveAll _).trans replica
  have ended : ((network.step (.openClient sessionName)).step (.send sessionName content)).step
      (.finish sessionName) = ⟨after, network.now, connection :: network.connections⟩ := by
    have finished := network.finish_openConnection sessionName .client content
    rw [same] at finished
    change ((network.openConnection sessionName .client []).send sessionName content).finish
      sessionName = _
    rw [send_openConnection, List.nil_append]
    simp only [connection] at received
    simp only [received] at finished
    exact finished (connection.finish_of_replica still)
  have ran : network.session content = (((later.frames connection.outbox).flatMap Frame.encode),
      ⟨after, network.now, connection :: network.connections⟩) := by
    rw [session, ended]
    simp [find?, connection, queuedFor, after]
  have frames := gained.frames outboxes.isOpen_create_next
  rw [Outboxes.frames_create, Outboxes.frames_next, List.nil_append] at frames
  rw [ran]
  refine ⟨?_, rfl, later, rfl⟩
  rw [frames, List.flatMap_assoc]
  rfl

/-- Clients of a replica are sent what their requests come to, one client after the other. -/
theorem sessions_of_replica (replica : server.role.isPrimary = false)
    (same : network.server = { server with outboxes }) (clients : List Bytes) :
    network.sessions clients = server.attendAll network.now clients := by
  induction clients generalizing server network outboxes with
  | nil => rfl
  | cons content rest ih =>
    obtain ⟨sent, now, later, ended⟩ := session_of_replica replica same content
    have still : (server.attend network.now content).2.role.isPrimary = false :=
      (server.isPrimary_serveAll _).trans replica
    have behind := ih still ended
    rw [now] at behind
    simp only [sessions, Server.attendAll, sent, behind]

end Network

end RespKeyspace
