import RespKeyspace.Text.AsciiCase
import RespKeyspace.Text.Blank
import RespKeyspace.Wire

/-! The handshake of a replica with its primary: four greetings, each answered
before the next one is sent, and the snapshot if the last answer announces one.
The answers may be any values. -/

namespace RespKeyspace

inductive Greeting where
  | ping
  | listeningPort
  | capabilities
  | psync
deriving Repr, DecidableEq

namespace Greeting

def name : Greeting → String
  | .ping => "PING"
  | .listeningPort => "REPLCONF listening-port"
  | .capabilities => "REPLCONF capa"
  | .psync => "PSYNC"

/-- The request sent, from a replica that listens on `port`. -/
def toValue (port : Nat) : Greeting → Value
  | .ping => Value.ofWords ["PING"]
  | .listeningPort => Value.ofWords ["REPLCONF", "listening-port", toString port]
  | .capabilities => Value.ofWords ["REPLCONF", "capa", "psync2"]
  | .psync => Value.ofWords ["PSYNC", "?", "-1"]

/-- The greetings before the last one, in order. -/
def preliminaries : List Greeting := [.ping, .listeningPort, .capabilities]

end Greeting

/-- Why a handshake failed: a greeting could not be sent, or no answer to it, or
no snapshot behind the answer, could be read. -/
inductive HandshakeFault where
  | send (greeting : Greeting) (reason : String)
  | receive (greeting : Greeting) (fault : ReadFault)
deriving Repr, DecidableEq

def HandshakeFault.message : HandshakeFault → String
  | .send greeting reason => "failed to send " ++ greeting.name ++ ": " ++ reason
  | .receive greeting fault =>
    "failed to read reply to " ++ greeting.name ++ ": " ++ fault.message

/-- The replication id in `FULLRESYNC <id> ...`, the first word in any ASCII case. -/
def Value.announcedId? : Value → Option String
  | .simple text =>
    match Text.words text with
    | keyword :: id :: _ =>
      if AsciiCase.same (Bytes.ofText keyword) (Bytes.ofText "FULLRESYNC") then some id else none
    | _ => none
  | _ => none

namespace Wire

def greet (wire : Wire) (port : Nat) (greeting : Greeting) : Except HandshakeFault Unit × Wire :=
  match wire.write (greeting.toValue port).encode with
  | (.error reason, wire) => (.error (.send greeting reason), wire)
  | (.ok (), wire) =>
    match wire.flush with
    | (.error reason, wire) => (.error (.send greeting reason), wire)
    | (.ok (), wire) => (.ok (), wire)

/-- Read what is due to a greeting. -/
def expect {Content : Type} (wire : Wire) (greeting : Greeting)
    (reader : Incoming → Except ReadFault Content × Incoming) :
    Except HandshakeFault Content × Wire :=
  match wire.readWith reader with
  | (.error fault, wire) => (.error (.receive greeting fault), wire)
  | (.ok content, wire) => (.ok content, wire)

def exchange (wire : Wire) (port : Nat) (greeting : Greeting) :
    Except HandshakeFault Value × Wire :=
  match wire.greet port greeting with
  | (.error fault, wire) => (.error fault, wire)
  | (.ok (), wire) => wire.expect greeting Incoming.readOne

/-- Exchange one greeting after another, whatever the answers say. -/
def exchangeAll (wire : Wire) (port : Nat) : List Greeting → Except HandshakeFault Unit × Wire
  | [] => (.ok (), wire)
  | greeting :: rest =>
    match wire.exchange port greeting with
    | (.error fault, wire) => (.error fault, wire)
    | (.ok _, wire) => wire.exchangeAll port rest

/-- The whole handshake: the replication id, if the primary announced one. What
was received behind the snapshot is left in the buffer. -/
def handshake (wire : Wire) (port : Nat) : Except HandshakeFault (Option String) × Wire :=
  match wire.exchangeAll port Greeting.preliminaries with
  | (.error fault, wire) => (.error fault, wire)
  | (.ok (), wire) =>
    match wire.exchange port .psync with
    | (.error fault, wire) => (.error fault, wire)
    | (.ok reply, wire) =>
      match reply.announcedId? with
      | none => (.ok none, wire)
      | some id =>
        match wire.expect .psync Incoming.readSnapshot with
        | (.error fault, wire) => (.error fault, wire)
        | (.ok _, wire) => (.ok (some id), wire)

end Wire

end RespKeyspace
