import RespKeyspace.Handshake
import RespKeyspace.Network

/-! A server's whole run: a replica first greets its primary and works off what it
sends, and then clients are served one after the other. -/

namespace RespKeyspace

/-- Why a server never came to serve clients. -/
inductive ServiceFault where
  | unreachable (primary : Endpoint) (reason : String)
  | handshake (fault : HandshakeFault)
deriving Repr, DecidableEq

def ServiceFault.message : ServiceFault → String
  | .unreachable primary reason =>
    "failed to connect to master " ++ primary.address ++ ": " ++ reason
  | .handshake fault => "replication handshake failed: " ++ fault.message

/-- What a replica meets at its primary's address: a refusal, or a peer that sends
all its bytes and ends. -/
inductive Uplink where
  | refused (reason : String)
  | sends (content : Bytes)
deriving Repr, DecidableEq

/-- What a run shows: the bytes the primary received, and either why no client was
served or the bytes each of them received. -/
structure ServiceReport where
  toPrimary : Bytes
  sessions : Except ServiceFault (List Bytes)

namespace Network

def linkName : String := "primary"

def sessionName : String := "client"

/-- One client: it connects, sends everything, ends, and collects the replies. -/
def session (network : Network) (content : Bytes) : Bytes × Network :=
  let finished := ((network.step (.openClient sessionName)).step
    (.send sessionName content)).step (.finish sessionName)
  (((finished.find? sessionName).map finished.queuedFor).getD [], finished)

/-- Clients one after the other. -/
def sessions (network : Network) : List Bytes → List Bytes
  | [] => []
  | content :: rest =>
    let (replies, after) := network.session content
    replies :: after.sessions rest

end Network

namespace Server

/-- Adopt the replication id that the primary announced, if it did. -/
def adopt (server : Server) (id : Option String) : Server :=
  { server with replicationId := id.getD server.replicationId }

/-- Work off a link on which `incoming` is left of the primary's bytes. -/
def runLink (server : Server) (incoming : Incoming) : Bytes × Network :=
  let opened := (Network.start server).step (.openPrimary Network.linkName incoming.buffer)
  let sent := incoming.chunks.foldl
    (fun network chunk => network.step (.send Network.linkName chunk)) opened
  let ended := sent.step (.finish Network.linkName)
  (((ended.find? Network.linkName).map ended.queuedFor).getD [], ended)

/-- Greet the primary, which sends `content`, and work off the rest. -/
def runReplica (server : Server) (port : Nat) (content : Bytes) (clients : List Bytes) : ServiceReport :=
  let chunks := if content.isEmpty then [] else [content]
  let wire : Wire := { incoming := ⟨[], chunks, none⟩ }
  match wire.handshake port with
  | (.error fault, wire) => ⟨wire.written, .error (.handshake fault)⟩
  | (.ok id, wire) =>
    let (acknowledged, network) := (server.adopt id).runLink wire.incoming
    ⟨wire.written ++ acknowledged, .ok (network.sessions clients)⟩

/-- A whole run of a server that listens on `port`. -/
def run (server : Server) (port : Nat) (uplink : Uplink) (clients : List Bytes) : ServiceReport :=
  match server.role, uplink with
  | .primary _, _ => ⟨[], .ok ((Network.start server).sessions clients)⟩
  | .replica followed, .refused reason => ⟨[], .error (.unreachable followed reason)⟩
  | .replica _, .sends content => server.runReplica port content clients

end Server

end RespKeyspace
