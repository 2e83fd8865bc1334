import RespKeyspace.Proofs.Session.Grounded

/-! The history of a network: every value that was executed, on which connection, when, and
in front of which server. What holds along a history is shown one event at a time. -/

namespace RespKeyspace

/-- A value executed on a connection, and the server as the value met it. -/
structure Event where
  connection : Connection
  now : Nat
  value : Value
  server : Server

def Event.after (event : Event) : Server :=
  (event.connection.execute event.now event.value event.server).2

/-- The values that a connection executes, up to the one that ends it. -/
def Connection.events (connection : Connection) (now : Nat) : List Value → Server → List Event
  | [], _ => []
  | value :: rest, server =>
    ⟨connection, now, value, server⟩ ::
      match connection.execute now value server with
      | (true, after) => connection.events now rest after
      | (false, _) => []

namespace Network

def arrivals (network : Network) (name : String) (content : Bytes) : List Event :=
  match network.find? name with
  | none => []
  | some connection =>
    match connection.pending with
    | none => []
    | some held =>
      connection.events network.now (Value.decoded (held ++ content)).values network.server

def stepEvents (network : Network) : Step → List Event
  | .openPrimary name buffer => (network.openConnection name .primary []).arrivals name buffer
  | .send name content => network.arrivals name content
  | _ => []

def events (network : Network) : List Step → List Event
  | [] => []
  | step :: rest => network.stepEvents step ++ (network.step step).events rest

/-- An event on an open connection of a network, at its time and with its server. -/
structure Meets (network : Network) (event : Event) : Prop where
  found : network.find? event.connection.name = some event.connection
  opened : event.connection.isOpen = true
  now : event.now = network.now
  server : event.server = network.server

theorem Meets.member {network : Network} {event : Event} (met : network.Meets event) :
    event.connection ∈ network.connections := (find?_spec met.found).1

/-- Open a connection on which nothing was received yet. -/
def connect (network : Network) (name : String) (kind : ConnectionKind) : Network :=
  { network with
    server := { network.server with outboxes := network.server.outboxes.create }
    connections := ⟨name, kind, network.server.outboxes.next, some []⟩ :: network.connections }

def setPending (network : Network) (name : String) (pending : Pending) : Network :=
  { network with connections := updateNamed name ({ · with pending }) network.connections }

theorem openConnection_nil (network : Network) (name : String) (kind : ConnectionKind) :
    network.openConnection name kind [] = network.connect name kind := by
  unfold openConnection connect
  simp only [Connection.receive_eq, Server.settle, Value.decoded_nil, Server.runUntil, and_self, if_true]
  rfl

theorem finish_of_open {network : Network} {connection : Connection}
    (found : network.find? connection.name = some connection) (opened : connection.isOpen = true) :
    network.finish connection.name =
      { network.setPending connection.name none with server := connection.finish network.server } := by
  simp only [finish, found, opened, if_true]
  rfl

theorem finish_of_closed {network : Network} {connection : Connection}
    (found : network.find? connection.name = some connection) (closed : connection.isOpen = false) :
    network.finish connection.name = network := by
  simp [finish, found, closed]

theorem finish_cases (network : Network) (name : String) :
    network.finish name = network ∨ ∃ connection : Connection, network.finish name =
      { network.setPending name none with server := connection.finish network.server } := by
  unfold finish
  split
  · exact .inl rfl
  · rename_i connection _
    split
    · exact .inr ⟨connection, rfl⟩
    · exact .inl rfl

theorem send_of_pending {network : Network} {connection : Connection}
    (found : network.find? connection.name = some connection) {held : Bytes}
    (pending : connection.pending = some held) (content : Bytes) :
    network.send connection.name content =
      let received := connection.receive network.now (held ++ content) network.server
      { network.setPending connection.name received.1 with server := received.2 } := by
  simp only [send, found, pending]
  rfl

/-- A property of histories and networks that nothing a network does can break: opening a
connection, executing a value, keeping bytes for later, closing a connection, and the clock. -/
structure Keeps (property : List Event → Network → Prop) : Prop where
  connected : ∀ {history network}, property history network → ∀ name kind,
    property history (network.connect name kind)
  executed : ∀ {history network}, property history network → ∀ event, network.Meets event →
    property (history ++ [event]) { network with server := event.after }
  kept : ∀ {history network}, property history network → ∀ connection,
    network.find? connection.name = some connection → connection.isOpen = true → ∀ rest,
      property history (network.setPending connection.name (some rest))
  closed : ∀ {history network}, property history network → ∀ connection,
    network.find? connection.name = some connection → connection.isOpen = true →
      property history
        { network.setPending connection.name none with server := connection.finish network.server }
  advanced : ∀ {history network}, property history network → ∀ milliseconds,
    property history { network with now := network.now + milliseconds }

namespace Keeps

variable {property : List Event → Network → Prop} {history : List Event} {network : Network}

theorem executes (keeps : Keeps property) (holds : property history network) {connection : Connection}
    (found : network.find? connection.name = some connection) (opened : connection.isOpen = true)
    (values : List Value) :
    property (history ++ connection.events network.now values network.server)
      { network with
        server := (Server.runUntil (connection.execute network.now) values network.server).2 } := by
  -- Each value is executed in the network that the values before it have left.
  induction values generalizing history network with
  | nil => simpa [Connection.events, Server.runUntil] using holds
  | cons value rest ih =>
    let event : Event := ⟨connection, network.now, value, network.server⟩
    have first := keeps.executed holds event ⟨found, opened, rfl, rfl⟩
    rw [Connection.events, Server.runUntil]
    cases done : connection.execute network.now value network.server with
    | mk goesOn after =>
    have same : event.after = after := congrArg Prod.snd done
    rw [same] at first
    cases goesOn with
    | true =>
      have later := ih first found
      rwa [List.append_assoc] at later
    | false => exact first

theorem send (keeps : Keeps property) (holds : property history network) (name : String)
    (content : Bytes) :
    property (history ++ network.arrivals name content) (network.send name content) := by
  unfold arrivals Network.send
  cases found : network.find? name with
  | none => simpa using holds
  | some connection =>
    dsimp only
    cases pending : connection.pending with
    | none => simpa using holds
    | some held =>
      obtain rfl := (find?_spec found).2
      have opened : connection.isOpen = true := by simp [Connection.isOpen, pending]
      have ran := keeps.executes holds found opened (Value.decoded (held ++ content)).values
      dsimp only
      rw [Connection.receive_eq]
      unfold Server.settle
      dsimp only
      split
      · exact keeps.kept ran connection found opened _
      · exact keeps.closed ran connection found opened

theorem step (keeps : Keeps property) (holds : property history network) (step : Step) :
    property (history ++ network.stepEvents step) (network.step step) := by
  cases step with
  | openClient name =>
    simp only [stepEvents, List.append_nil, Network.step, openConnection_nil]
    exact keeps.connected holds name .client
  | openPrimary name buffer =>
    have sent := keeps.send (keeps.connected holds name .primary) name buffer
    rwa [← openConnection_nil, send_openConnection, List.nil_append] at sent
  | send name content => exact keeps.send holds name content
  | finish name =>
    simp only [stepEvents, List.append_nil, Network.step]
    cases found : network.find? name with
    | none => simpa [Network.finish, found] using holds
    | some connection =>
      obtain rfl := (find?_spec found).2
      cases opened : connection.isOpen with
      | true =>
        rw [finish_of_open found opened]
        exact keeps.closed holds connection found opened
      | false => simpa [Network.finish, found, opened] using holds
  | advance milliseconds =>
    simp only [stepEvents, List.append_nil]
    exact keeps.advanced holds milliseconds

/-- What nothing can break holds after every run. -/
theorem run (keeps : Keeps property) (holds : property history network) (steps : List Step) :
    property (history ++ network.events steps) (network.run steps) := by
  induction steps generalizing history network with
  | nil => simpa [events, Network.run] using holds
  | cons first rest ih =>
    have later := ih (keeps.step holds first)
    rwa [List.append_assoc] at later

/-- Every event of a history was met while the property held. -/
def Past (property : List Event → Network → Prop) (history : List Event) : Prop :=
  ∀ earlier event later, history = earlier ++ event :: later →
    ∃ network, property earlier network ∧ network.Meets event

theorem Past.concat (past : Past property history) (holds : property history network) {event : Event}
    (met : network.Meets event) : Past property (history ++ [event]) := by
  intro earlier other later whole
  rcases List.eq_nil_or_concat later with rfl | ⟨front, last, rfl⟩
  · obtain ⟨rfl, same⟩ := List.append_inj' whole rfl
    cases same
    exact ⟨network, holds, met⟩
  · rw [List.concat_eq_append, ← List.cons_append, ← List.append_assoc] at whole
    exact past earlier other front (List.append_inj' whole rfl).1

theorem withPast (keeps : Keeps property) :
    Keeps fun history network => property history network ∧ Past property history where
  connected holds name kind := ⟨keeps.connected holds.1 name kind, holds.2⟩
  executed holds event met := ⟨keeps.executed holds.1 event met, holds.2.concat holds.1 met⟩
  kept holds connection found opened rest := ⟨keeps.kept holds.1 connection found opened rest, holds.2⟩
  closed holds connection found opened := ⟨keeps.closed holds.1 connection found opened, holds.2⟩
  advanced holds milliseconds := ⟨keeps.advanced holds.1 milliseconds, holds.2⟩

theorem past (keeps : Keeps property) (holds : property [] network) (steps : List Step) :
    Past property (network.events steps) := by
  have nothing : Past property [] := by
    intro earlier event later absurd
    simp at absurd
  exact (keeps.withPast.run ⟨holds, nothing⟩ steps).2

end Keeps

end Network

end RespKeyspace
