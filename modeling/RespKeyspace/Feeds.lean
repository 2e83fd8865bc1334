import RespKeyspace.Server.Execution

/-! A server together with the receiving ends of the queues it feeds. Requests
arrive without connections, one at a time, and the receiving ends are held by
address: they can be emptied, and taken away. -/

namespace RespKeyspace

/-- A server, the time, and the outbox whose receiving end is held for each
address. -/
structure Feeds where
  server : Server
  now : Nat
  receivers : Table String OutboxId
deriving Repr, DecidableEq

namespace Feeds

/-- What can happen to a server and its feeds. -/
inductive Step where
  | request (value : Value)
  | fromPrimary (value : Value)
  | attach (address : String)
  | detach (address : String)
  | hangUp (address : String)
  | drain (address : String)
  | propagate (value : Value)
  | report
  | inspect (key : Bytes)
  | advance (milliseconds : Nat)
deriving Repr, DecidableEq

inductive Result where
  | nothing
  | executed (outcome : Except Refusal Outcome)
  | hungUp (held : Bool)
  | drained (frames : Option (List Frame))
  | report (text : String)
  | inspected (entry : Option Entry)

def start (server : Server) : Feeds := ⟨server, 0, .empty⟩

def updateHeld (feeds : Feeds) (address : String) (change : Outbox → Outbox) : Feeds :=
  match feeds.receivers.find? address with
  | none => feeds
  | some box =>
    { feeds with server.outboxes := feeds.server.outboxes.update box change }

/-- Let go of the receiving end held for an address. -/
def letGo (feeds : Feeds) (address : String) : Feeds :=
  { feeds.updateHeld address .close with receivers := feeds.receivers.erase address }

/-- Make a fresh outbox, hold its receiving end for an address, and have the
server record it as a replica there. -/
def attach (feeds : Feeds) (address : String) : Feeds :=
  let free := feeds.letGo address
  let box := free.server.outboxes.next
  { free with
    server := { free.server with outboxes := free.server.outboxes.create }.register address box
    receivers := free.receivers.insert address box }

/-- The frames waiting at the receiving end held for an address. -/
def waiting? (feeds : Feeds) (address : String) : Option (List Frame) :=
  (feeds.receivers.find? address).map feeds.server.outboxes.waiting

def step (feeds : Feeds) : Step → Result × Feeds
  | .request value =>
    let (outcome, server) := feeds.server.serve feeds.now value
    (.executed outcome, { feeds with server })
  | .fromPrimary value =>
    let (outcome, server) := feeds.server.follow feeds.now value
    (.executed outcome, { feeds with server })
  | .attach address => (.nothing, feeds.attach address)
  | .detach address => (.nothing, { feeds with server := feeds.server.deregister address })
  | .hangUp address =>
    (.hungUp (feeds.receivers.find? address).isSome, feeds.letGo address)
  | .drain address =>
    (.drained (feeds.waiting? address), feeds.updateHeld address .collect)
  | .propagate value => (.nothing, { feeds with server := feeds.server.propagate value })
  | .report => (.report feeds.server.replicationReport, feeds)
  | .inspect key => (.inspected (feeds.server.keys.find? key), feeds)
  | .advance milliseconds => (.nothing, { feeds with now := feeds.now + milliseconds })

end Feeds

end RespKeyspace
