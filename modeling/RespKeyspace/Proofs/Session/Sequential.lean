import RespKeyspace.Network
import RespKeyspace.Proofs.Reader.Decoded

/-! A connection executes the values on it one after the other. Neither the batches in
which they are read nor the pieces in which they arrive make a difference. -/

namespace RespKeyspace

namespace Server

/-- Execute values in order until one of them ends the connection. -/
def runUntil (execute : Value → Server → Bool × Server) : List Value → Server → Bool × Server
  | [], server => (true, server)
  | value :: rest, server =>
    match execute value server with
    | (true, after) => runUntil execute rest after
    | (false, after) => (false, after)

def serveOne (now : Nat) (client : Client) (value : Value) (server : Server) : Bool × Server :=
  match server.serve now value with
  | (.ok outcome, after) => (true, after.deliver client outcome)
  | (.error refusal, after) =>
    if refusal.isFatal then (false, after)
    else (true, after.push client.outbox (.value refusal.reply))

/-- What is queued for one value of a client: what its request led to, the answer to a
refusal, or nothing if the refusal is fatal. -/
theorem serveOne_cases (now : Nat) (client : Client) (value : Value) (server : Server) :
    (∃ outcome, serveOne now client value server =
      (true, (server.serve now value).2.deliver client outcome)) ∨
    (∃ refusal : Refusal, serveOne now client value server =
      (true, (server.serve now value).2.push client.outbox (.value refusal.reply))) ∨
    serveOne now client value server = (false, (server.serve now value).2) := by
  unfold serveOne
  cases server.serve now value with
  | mk result after =>
  cases result with
  | ok outcome => exact .inl ⟨outcome, rfl⟩
  | error refusal =>
    cases fatal : refusal.isFatal with
    | true => exact .inr (.inr (by simp [fatal]))
    | false => exact .inr (.inl ⟨refusal, by simp [fatal]⟩)

def followOne (now : Nat) (outbox : OutboxId) (value : Value) (server : Server) : Bool × Server :=
  match server.follow now value with
  | (.ok (.reply reply), after) => (true, after.push outbox (.value reply))
  | (.ok _, after) => (true, after)
  | (.error refusal, after) => (!refusal.isFatal, after)

private theorem serveBatch_eq (now : Nat) (client : Client) :
    serveBatch now client = runUntil (serveOne now client) := by
  funext values server
  induction values generalizing server with
  | nil => rfl
  | cons value rest ih =>
    rw [serveBatch, runUntil, serveOne]
    cases server.serve now value with
    | mk result after =>
    cases result with
    | ok outcome => exact ih _
    | error refusal =>
      cases fatal : refusal.isFatal with
      | true => simp [fatal]
      | false => simpa [fatal] using ih _

private theorem followBatch_eq (now : Nat) (outbox : OutboxId) :
    followBatch now outbox = runUntil (followOne now outbox) := by
  funext values server
  induction values generalizing server with
  | nil => rfl
  | cons value rest ih =>
    rw [followBatch, runUntil, followOne]
    cases server.follow now value with
    | mk result after =>
    cases result with
    | ok outcome => cases outcome <;> exact ih _
    | error refusal =>
      cases fatal : refusal.isFatal with
      | true => simp [fatal]
      | false => simpa [fatal] using ih _

variable (execute : Value → Server → Bool × Server)

theorem runUntil_append (first second : List Value) (server : Server) :
    runUntil execute (first ++ second) server =
      if (runUntil execute first server).1 = true then
        runUntil execute second (runUntil execute first server).2
      else runUntil execute first server := by
  induction first generalizing server with
  | nil => rfl
  | cons value rest ih =>
    rw [List.cons_append, runUntil, runUntil]
    split
    · exact ih _
    · simp

/-- What a connection comes to once all that it holds is executed: the bytes kept for
later, unless it is closed, and the server. -/
def settle (held : Value.Decoded) (server : Server) : Pending × Server :=
  let ran := runUntil execute held.values server
  (if ran.1 = true ∧ held.fault? = none then some held.rest else none, ran.2)

private theorem receive_eq (buffer : Bytes) (server : Server) :
    receive (runUntil execute) buffer server = settle execute (Value.decoded buffer) server := by
  induction length : buffer.length using Nat.strongRecOn generalizing buffer server with
  | ind count ih =>
    rw [receive]
    split
    · rename_i read
      rw [Value.decoded_of_readAll_incomplete read]
      rfl
    · rename_i fault read
      rw [Value.decoded_of_readAll_malformed read]
      rfl
    · rename_i values rest read
      have shorter := Value.readAll_takes read
      have held := Value.decoded_of_readAll_value read
      have behind := Value.decoded_rest buffer
      rw [held] at behind
      rw [held]
      split
      · rename_i after ran
        rw [ih rest.length (by omega) rest after rfl, behind]
        simp [settle, ran, runUntil]
      · rename_i after ran
        simp [settle, ran]

variable {execute} {server after : Server} {held : Value.Decoded} {buffer pending : Bytes}

theorem settle_fst_of_some (settled : (settle execute held server).1 = some pending) :
    (runUntil execute held.values server).1 = true ∧ held.fault? = none ∧ held.rest = pending := by
  unfold settle at settled
  dsimp only at settled
  split at settled
  · rename_i goesOn
    exact ⟨goesOn.1, goesOn.2, by simpa using settled⟩
  · cases settled

private theorem settle_append_of_some
    (settled : settle execute (Value.decoded buffer) server = (some pending, after)) (more : Bytes) :
    settle execute (Value.decoded (buffer ++ more)) server =
      settle execute (Value.decoded (pending ++ more)) after := by
  obtain ⟨goesOn, _, rest⟩ := settle_fst_of_some (by rw [settled] :
    (settle execute (Value.decoded buffer) server).1 = some pending)
  have ran : (runUntil execute (Value.decoded buffer).values server).2 = after :=
    congrArg Prod.snd settled
  rw [Value.decoded_append, rest]
  simp [settle, runUntil_append, goesOn, ran]

private theorem settle_append_of_none
    (settled : settle execute (Value.decoded buffer) server = (none, after)) (more : Bytes) :
    settle execute (Value.decoded (buffer ++ more)) server = (none, after) := by
  have ran : (runUntil execute (Value.decoded buffer).values server).2 = after :=
    congrArg Prod.snd settled
  have closed : ¬ ((runUntil execute (Value.decoded buffer).values server).1 = true ∧
      (Value.decoded buffer).fault? = none) := by
    intro goesOn
    simp [settle, goesOn] at settled
  by_cases goesOn : (runUntil execute (Value.decoded buffer).values server).1 = true
  · obtain ⟨fault, found⟩ := Option.ne_none_iff_exists'.mp fun none => closed ⟨goesOn, none⟩
    rw [Value.decoded_append_of_fault found]
    simp [settle, ran]
  · rw [Value.decoded_append]
    simp [settle, runUntil_append, goesOn, ran]

end Server

namespace Connection

variable (connection : Connection) (now : Nat)

def execute : Value → Server → Bool × Server :=
  match connection.kind with
  | .client => Server.serveOne now connection.client
  | .primary => Server.followOne now connection.outbox

/-- A connection executes all the values on it one after the other, and if it is closed
the server does what it does when a peer ends. -/
theorem receive_eq (buffer : Bytes) (server : Server) :
    connection.receive now buffer server =
      let settled := Server.settle (connection.execute now) (Value.decoded buffer) server
      (settled.1, if settled.1 = none then connection.finish settled.2 else settled.2) := by
  unfold receive execute finish
  cases connection.kind with
  | client =>
    simp only [Server.receiveClient, Server.serveBatch_eq, Server.receive_eq]
    split
    · rename_i settled
      simp [settled]
    · rename_i settled
      rw [settled]
      rfl
  | primary =>
    simp only [Server.receivePrimary, Server.followBatch_eq, Server.receive_eq]
    simp

variable {connection} {now} {server after : Server} {buffer pending : Bytes}

theorem settle_of_receive_some
    (received : connection.receive now buffer server = (some pending, after)) :
    Server.settle (connection.execute now) (Value.decoded buffer) server = (some pending, after) := by
  rw [receive_eq] at received
  simp only [Prod.mk.injEq] at received
  obtain ⟨still, same⟩ := received
  rw [if_neg (by simp [still])] at same
  exact Prod.ext still same

theorem receive_append_of_some
    (received : connection.receive now buffer server = (some pending, after)) (more : Bytes) :
    connection.receive now (buffer ++ more) server = connection.receive now (pending ++ more) after := by
  rw [receive_eq, receive_eq, Server.settle_append_of_some (settle_of_receive_some received)]

theorem receive_append_of_none
    (received : connection.receive now buffer server = (none, after)) (more : Bytes) :
    connection.receive now (buffer ++ more) server = (none, after) := by
  rw [receive_eq] at received ⊢
  simp only [Prod.mk.injEq] at received
  obtain ⟨closed, same⟩ := received
  have settled : Server.settle (connection.execute now) (Value.decoded buffer) server = (none, _) :=
    Prod.ext closed rfl
  rw [Server.settle_append_of_none settled]
  simpa [closed] using same

end Connection

namespace Network

theorem forall_updateNamed {property : Connection → Prop} {connections : List Connection}
    {name : String} {change : Connection → Connection}
    (keeps : ∀ connection, property connection → property (change connection))
    (all : ∀ connection ∈ connections, property connection) :
    ∀ connection ∈ updateNamed name change connections, property connection := by
  induction connections with
  | nil => simp [updateNamed]
  | cons first rest ih =>
    have head := all first (by simp)
    have tail : ∀ connection ∈ rest, property connection := fun connection member =>
      all connection (by simp [member])
    unfold updateNamed
    split
    · intro connection member
      rcases List.mem_cons.mp member with rfl | later
      · exact keeps first head
      · exact tail connection later
    · intro connection member
      rcases List.mem_cons.mp member with rfl | later
      · exact head
      · exact ih tail connection later

theorem find?_spec {network : Network} {name : String} {connection : Connection}
    (found : network.find? name = some connection) :
    connection ∈ network.connections ∧ connection.name = name :=
  ⟨List.mem_of_find?_eq_some found, by simpa using List.find?_some found⟩

theorem find?_updateNamed {connections : List Connection} {name : String} {connection : Connection}
    (change : Connection → Connection) (same : (change connection).name = connection.name)
    (found : connections.find? (·.name = name) = some connection) :
    (updateNamed name change connections).find? (·.name = name) = some (change connection) := by
  induction connections with
  | nil => cases found
  | cons first rest ih =>
    unfold updateNamed
    by_cases here : first.name = name
    · simp only [here, if_true, decide_true, List.find?_cons_of_pos, Option.some.injEq] at found ⊢
      subst found
      simp [same, here]
    · simp only [here, decide_false, Bool.false_eq_true, not_false_eq_true,
        List.find?_cons_of_neg] at found
      simpa [here] using ih found

theorem find?_updateNamed_of_ne {name other : String} (differ : other ≠ name) (pending : Pending)
    (connections : List Connection) :
    (updateNamed other ({ · with pending }) connections).find? (·.name = name) =
      connections.find? (·.name = name) := by
  induction connections with
  | nil => rfl
  | cons first rest ih =>
    unfold updateNamed
    split
    · rename_i here
      have away : first.name ≠ name := here ▸ differ
      simp [away]
    · by_cases here : first.name = name <;> simp [here, ih]

def sendAll (network : Network) (name : String) (chunks : List Bytes) : Network :=
  chunks.foldl (fun current chunk => current.step (.send name chunk)) network

theorem sendAll_cons (network : Network) (name : String) (chunk : Bytes) (chunks : List Bytes) :
    network.sendAll name (chunk :: chunks) = (network.step (.send name chunk)).sendAll name chunks :=
  rfl

theorem find?_openConnection (network : Network) (name : String) (kind : ConnectionKind)
    (buffer : Bytes) :
    (network.openConnection name kind buffer).find? name =
      some ⟨name, kind, network.server.outboxes.next,
        (Connection.receive ⟨name, kind, network.server.outboxes.next, none⟩ network.now buffer
          { network.server with outboxes := network.server.outboxes.create }).1⟩ := by
  simp [find?, openConnection]

/-- Bytes that follow on a connection just opened might as well have been there when it
was opened. -/
theorem send_openConnection (network : Network) (name : String) (kind : ConnectionKind)
    (buffer chunk : Bytes) :
    (network.openConnection name kind buffer).send name chunk =
      network.openConnection name kind (buffer ++ chunk) := by
  rw [send, find?_openConnection]
  cases received : Connection.receive ⟨name, kind, network.server.outboxes.next, none⟩ network.now
      buffer { network.server with outboxes := network.server.outboxes.create } with
  | mk pending after =>
    cases pending with
    | none =>
      have still := Connection.receive_append_of_none received chunk
      simp [openConnection, received, still]
    | some held =>
      have later := Connection.receive_append_of_some received chunk
      simp only [openConnection, received, later, updateNamed, if_true]
      rfl

theorem sendAll_openConnection (network : Network) (name : String) (kind : ConnectionKind)
    (buffer : Bytes) (chunks : List Bytes) :
    (network.openConnection name kind buffer).sendAll name chunks =
      network.openConnection name kind (buffer ++ chunks.flatten) := by
  induction chunks generalizing buffer with
  | nil => simp [sendAll]
  | cons chunk later ih =>
    rw [sendAll_cons, step, send_openConnection, ih]
    simp

end Network

end RespKeyspace
