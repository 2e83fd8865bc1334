import RespKeyspace.Server

/-! Executing commands: for a client, who is answered, and for the primary that a
replica follows, who is answered only when it asks for the offset. -/

namespace RespKeyspace

/-- What a command leads to: nothing, a reply, or the announcement of a snapshot
that is to follow. -/
inductive Outcome where
  | silent
  | reply (value : Value)
  | sync (announcement : Value)
deriving Repr, DecidableEq

/-- The value that carries an assignment to replicas. Its lifetime stays behind. -/
def Assignment.toValue (assignment : Assignment) : Value :=
  Value.ofParts [Bytes.ofText "SET", assignment.key, assignment.content]

namespace Server

/-- The announcement of a full copy: the replication id and the offset zero. -/
def resyncAnnouncement (server : Server) : Value :=
  .simple ("FULLRESYNC " ++ server.replicationId ++ " 0")

/-- The acknowledgement of all that was received so far. -/
def acknowledgement (server : Server) : Value :=
  Value.ofWords ["REPLCONF", "ACK", toString server.offset.toNat]

/-- Store what is assigned, and feed it to the replicas. -/
def assign (server : Server) (now : Nat) (assignment : Assignment) : Server :=
  let stored := server.keys.set now assignment.key assignment.content assignment.lifetime
  { server with keys := stored }.propagate assignment.toValue

def perform (server : Server) (now : Nat) : Command → Outcome × Server
  | .ping => (.reply (.simple "PONG"), server)
  | .echo content => (.reply (.bulk content), server)
  | .get key =>
    let (found, keys) := server.keys.get now key
    (.reply (found.elim .null .bulk), { server with keys })
  | .set assignment => (.reply (.simple "OK"), server.assign now assignment)
  | .info => (.reply (.bulk (Bytes.ofText server.replicationReport)), server)
  | .replconf _ => (.reply (.simple "OK"), server)
  | .psync => (.sync server.resyncAnnouncement, server)

/-- Execute a client's request. -/
def execute (server : Server) (now : Nat) (request : Request) : Except Refusal Outcome × Server :=
  match Command.ofRequest request with
  | .error refusal => (.error refusal, server)
  | .ok command =>
    let (outcome, after) := server.perform now command
    (.ok outcome, after)

/-- Execute a client's request as it arrives. -/
def serve (server : Server) (now : Nat) (value : Value) : Except Refusal Outcome × Server :=
  match Request.ofValue? value with
  | none => (.error .notACommand, server)
  | some request => server.execute now request

/-- Execute a command of the primary, without regard to the offset. -/
def obey (server : Server) (now : Nat) : Command → Outcome × Server
  | .replconf true => (.reply server.acknowledgement, server)
  | command => (.silent, (server.perform now command).2)

/-- Follow the primary: execute its request and move the offset past it. A refused
request counts too, unless the value is no request at all. -/
def follow (server : Server) (now : Nat) (value : Value) : Except Refusal Outcome × Server :=
  match Request.ofValue? value with
  | none => (.error .notACommand, server)
  | some request =>
    match Command.ofRequest request with
    | .error refusal => (.error refusal, server.advance value)
    | .ok command =>
      let (outcome, after) := server.obey now command
      (.ok outcome, after.advance value)

end Server

end RespKeyspace
