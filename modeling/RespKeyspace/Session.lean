import RespKeyspace.Server.Execution

/-! What a server does with the bytes of one connection. Bytes arrive in pieces;
the complete values at the front are executed in order, and a connection ends at
a fatal refusal or at bytes that are no value. -/

namespace RespKeyspace

/-- The bytes received behind the last complete value; nothing once the server
has closed the connection. -/
abbrev Pending := Option Bytes

private theorem Value.readAllAfter_takes (done : List Value) (bytes : Bytes) :
    ∀ values rest, Value.readAllAfter done bytes = .value values rest →
      rest.length < bytes.length ∨ done ≠ [] ∧ rest = bytes := by
  fun_induction Value.readAllAfter done bytes with
  | case1 done bytes value behind found shorter ih =>
    intro values rest read
    rcases ih values rest read with less | ⟨_, same⟩
    · left; omega
    · left; subst same; omega
  | case2 => simp
  | case3 done bytes found started =>
    intro values rest read
    simp only [Reading.value.injEq] at read
    exact .inr ⟨by simpa [List.isEmpty_iff] using started, read.2.symm⟩
  | case4 => simp
  | case5 done bytes fault found started =>
    intro values rest read
    simp only [Reading.value.injEq] at read
    exact .inr ⟨by simpa [List.isEmpty_iff] using started, read.2.symm⟩

theorem Value.readAll_takes {bytes rest : Bytes} {values : List Value}
    (read : Value.readAll bytes = .value values rest) : rest.length < bytes.length := by
  rcases Value.readAllAfter_takes [] bytes values rest read with less | ⟨absurd, _⟩
  · exact less
  · exact (absurd rfl).elim

namespace Server

/-- Execute the complete values of a connection batch by batch, with `batch`
telling whether the connection goes on. -/
def receive (batch : List Value → Server → Bool × Server) (buffer : Bytes) (server : Server) :
    Pending × Server :=
  match read : Value.readAll buffer with
  | .incomplete => (some buffer, server)
  | .malformed _ => (none, server)
  | .value values rest =>
    have := Value.readAll_takes read
    match batch values server with
    | (true, server) => receive batch rest server
    | (false, server) => (none, server)
termination_by buffer.length

/-- A client's connection: the address it is known by, and its outbox. -/
structure Client where
  address : String
  outbox : OutboxId
deriving Repr, DecidableEq

/-- Queue what a request led to. A snapshot follows its announcement, and then the
connection is fed like any replica. -/
def deliver (server : Server) (client : Client) : Outcome → Server
  | .silent => server
  | .reply value => server.push client.outbox (.value value)
  | .sync announcement =>
    (server.push client.outbox (.value announcement)).push client.outbox
      (.snapshot Snapshot.empty) |>.register client.address client.outbox

/-- Execute a client's values in order, until one is refused fatally. -/
def serveBatch (now : Nat) (client : Client) : List Value → Server → Bool × Server
  | [], server => (true, server)
  | value :: rest, server =>
    match server.serve now value with
    | (.ok outcome, after) => serveBatch now client rest (after.deliver client outcome)
    | (.error refusal, after) =>
      if refusal.isFatal then (false, after)
      else serveBatch now client rest (after.push client.outbox (.value refusal.reply))

/-- Execute the primary's values in order, until one is refused fatally. Any other
refusal is passed over. -/
def followBatch (now : Nat) (outbox : OutboxId) : List Value → Server → Bool × Server
  | [], server => (true, server)
  | value :: rest, server =>
    match server.follow now value with
    | (.ok (.reply reply), after) =>
      followBatch now outbox rest (after.push outbox (.value reply))
    | (.ok _, after) => followBatch now outbox rest after
    | (.error refusal, after) =>
      if refusal.isFatal then (false, after) else followBatch now outbox rest after

/-- Receive bytes from a client. A connection that ends is fed no longer. -/
def receiveClient (server : Server) (now : Nat) (client : Client) (buffer : Bytes) :
    Pending × Server :=
  match receive (serveBatch now client) buffer server with
  | (some pending, after) => (some pending, after)
  | (none, after) => (none, after.deregister client.address)

def receivePrimary (server : Server) (now : Nat) (outbox : OutboxId) (buffer : Bytes) :
    Pending × Server :=
  receive (followBatch now outbox) buffer server

end Server

end RespKeyspace
