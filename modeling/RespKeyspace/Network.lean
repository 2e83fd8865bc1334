import RespKeyspace.Session

/-! A server and its connections. Peers open connections, send, and end; after
each such step the server has done all it can. -/

namespace RespKeyspace

inductive ConnectionKind where
  | client
  | primary
deriving Repr, DecidableEq

/-- A connection, by the name that its peer is known by. -/
structure Connection where
  name : String
  kind : ConnectionKind
  outbox : OutboxId
  pending : Pending
deriving Repr, DecidableEq

namespace Connection

def isOpen (connection : Connection) : Bool := connection.pending.isSome

def client (connection : Connection) : Server.Client := ⟨connection.name, connection.outbox⟩

def receive (connection : Connection) (now : Nat) (buffer : Bytes) (server : Server) :
    Pending × Server :=
  match connection.kind with
  | .client => server.receiveClient now connection.client buffer
  | .primary => server.receivePrimary now connection.outbox buffer

/-- What the server does once the peer has ended. -/
def finish (connection : Connection) (server : Server) : Server :=
  match connection.kind with
  | .client => server.deregister connection.name
  | .primary => server

end Connection

/-- A server, the time, and every connection ever opened, the newest first. -/
structure Network where
  server : Server
  now : Nat
  connections : List Connection
deriving Repr, DecidableEq

namespace Network

/-- What a peer, or the clock, does. -/
inductive Step where
  | openClient (name : String)
  | openPrimary (name : String) (buffer : Bytes)
  | send (name : String) (content : Bytes)
  | finish (name : String)
  | advance (milliseconds : Nat)
deriving Repr, DecidableEq

def start (server : Server) : Network := ⟨server, 0, []⟩

/-- Change the connection that was opened last under a name. -/
def updateNamed (name : String) (change : Connection → Connection) :
    List Connection → List Connection
  | [] => []
  | first :: rest =>
    if first.name = name then change first :: rest else first :: updateNamed name change rest

/-- The connection that was opened last under a name. -/
def find? (network : Network) (name : String) : Option Connection :=
  network.connections.find? (·.name = name)

/-- Open a connection on which `buffer` was received already. -/
def openConnection (network : Network) (name : String) (kind : ConnectionKind)
    (buffer : Bytes) : Network :=
  let outbox := network.server.outboxes.next
  let server := { network.server with outboxes := network.server.outboxes.create }
  let connection : Connection := ⟨name, kind, outbox, none⟩
  let (pending, server) := connection.receive network.now buffer server
  { network with server, connections := { connection with pending } :: network.connections }

/-- Deliver bytes on a connection; one that is closed takes none. -/
def send (network : Network) (name : String) (content : Bytes) : Network :=
  match network.find? name with
  | none => network
  | some connection =>
    match connection.pending with
    | none => network
    | some held =>
      let (pending, server) := connection.receive network.now (held ++ content) network.server
      { network with
        server
        connections := updateNamed name ({ · with pending }) network.connections }

/-- End a connection. Bytes of an incomplete value are dropped. -/
def finish (network : Network) (name : String) : Network :=
  match network.find? name with
  | none => network
  | some connection =>
    if connection.isOpen then
      { network with
        server := connection.finish network.server
        connections := updateNamed name ({ · with pending := none }) network.connections }
    else network

def step (network : Network) : Step → Network
  | .openClient name => network.openConnection name .client []
  | .openPrimary name buffer => network.openConnection name .primary buffer
  | .send name content => network.send name content
  | .finish name => network.finish name
  | .advance milliseconds => { network with now := network.now + milliseconds }

/-- The bytes waiting for a connection's peer. -/
def waitingFor (network : Network) (connection : Connection) : Bytes :=
  (network.server.outboxes.waiting connection.outbox).flatMap Frame.encode

/-- All bytes ever queued for a connection's peer. -/
def queuedFor (network : Network) (connection : Connection) : Bytes :=
  (network.server.outboxes.frames connection.outbox).flatMap Frame.encode

/-- Hand over what is waiting for every peer. -/
def handOver (network : Network) : Network :=
  { network with
    server.outboxes := ⟨network.server.outboxes.boxes.map Outbox.collect⟩ }

/-- What the peers see of a step: the bytes each one received, and the connections
that the server closed, both in the order of opening. -/
structure Observation where
  received : List (String × Bytes)
  closed : List String
deriving Repr, DecidableEq

/-- The connections closed in `after` that were open in `before`, or not yet there,
both lists in the order of opening. -/
def newlyClosed : List Connection → List Connection → List Connection
  | earlier :: before, later :: after =>
    if earlier.isOpen && !later.isOpen then later :: newlyClosed before after
    else newlyClosed before after
  | _, after => after.filter (!·.isOpen)

/-- What the peers see of the step from `before` to `after`. -/
def observation (before after : Network) : Observation where
  received := after.connections.reverse.filterMap fun connection =>
    match after.waitingFor connection with
    | [] => none
    | bytes => some (connection.name, bytes)
  closed := (newlyClosed before.connections.reverse after.connections.reverse).map (·.name)

/-- One step, with all that is waiting handed over, and what the peers see of it. -/
def observe (network : Network) (action : Step) : Observation × Network :=
  let after := network.step action
  (observation network after, after.handOver)

end Network

end RespKeyspace
