import RespKeyspace.Command
import RespKeyspace.Keyspace
import RespKeyspace.Replication

/-! A server: its role, its place in the stream of writes, its keys, and the
outboxes of its peers. -/

namespace RespKeyspace

structure Server where
  role : Role
  replicationId : String
  offset : UInt64
  keys : Keyspace
  outboxes : Outboxes
deriving Repr, DecidableEq

namespace Server

/-- A server as it starts: no keys, no peers, and offset zero. -/
def start (role : Role) (replicationId : String) : Server :=
  ⟨role, replicationId, 0, .empty, .none⟩

def backlogSize : Nat := 1048576

def replicationFields (server : Server) : List (String × String) := [
  ("role", server.role.label),
  ("connected_slaves", toString server.role.connected),
  ("master_replid", server.replicationId),
  ("master_repl_offset", toString server.offset.toNat),
  ("second_repl_offset", "-1"),
  ("repl_backlog_active", "0"),
  ("repl_backlog_size", toString backlogSize),
  ("repl_backlog_first_byte_offset", "0"),
  ("repl_backlog_histlen", "0")]

/-- The replication report as text, one line per field. -/
def replicationReport (server : Server) : String :=
  String.join (server.replicationFields.map fun field => field.1 ++ ":" ++ field.2 ++ "\r\n")

/-- Record a replica under an address, in place of any recorded there. -/
def register (server : Server) (address : String) (box : OutboxId) : Server :=
  { server with role := server.role.mapRegistry (·.insert address box) }

def deregister (server : Server) (address : String) : Server :=
  { server with role := server.role.mapRegistry (·.erase address) }

def push (server : Server) (box : OutboxId) (frame : Frame) : Server :=
  { server with outboxes := server.outboxes.push box frame }

/-- The number of bytes a value adds to an offset. -/
def frameLength (value : Value) : UInt64 := UInt64.ofNat value.encode.length

/-- Feed a value to every recorded replica, forgetting those that can no longer
be reached. The offset moves on only if some replica was fed. -/
def propagate (server : Server) (value : Value) : Server :=
  match server.role with
  | .replica _ => server
  | .primary replicas =>
    let reached := replicas.filter fun _ box => server.outboxes.isOpen box
    { server with
      role := .primary reached
      outboxes := server.outboxes.pushAll reached.values (.value value)
      offset := if reached.isEmpty then server.offset else server.offset + frameLength value }

def advance (server : Server) (value : Value) : Server :=
  { server with offset := server.offset + frameLength value }

end Server

end RespKeyspace
