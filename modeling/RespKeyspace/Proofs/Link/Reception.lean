import RespKeyspace.Proofs.Serving.Attending
import RespKeyspace.Proofs.Session.Framing

/-! How far a replica has come along its links and what it has written to them. Steps of clients
leave that as it is, and steps of links move it on by what is there of it alone. -/

namespace RespKeyspace

namespace Server

/-- What a request on one queue leaves alone: all of a server but its keys and that queue. -/
structure Spared (box : OutboxId) (before after : Server) : Prop where
  role : after.role = before.role
  replicationId : after.replicationId = before.replicationId
  offset : after.offset = before.offset
  others : ∀ other, other ≠ box → after.outboxes.frames other = before.outboxes.frames other

namespace Spared

variable {box : OutboxId} {before between after : Server}

theorem refl (box : OutboxId) (server : Server) : Spared box server server :=
  ⟨rfl, rfl, rfl, fun _ _ => rfl⟩

theorem trans (one : Spared box before between) (other : Spared box between after) :
    Spared box before after where
  role := other.role.trans one.role
  replicationId := other.replicationId.trans one.replicationId
  offset := other.offset.trans one.offset
  others box differ := (other.others box differ).trans (one.others box differ)

theorem keys (keys : Keyspace) (spared : Spared box before after) :
    Spared box before { after with keys } :=
  ⟨spared.role, spared.replicationId, spared.offset, spared.others⟩

theorem push (spared : Spared box before after) (frame : Frame) :
    Spared box before (after.push box frame) where
  role := spared.role
  replicationId := spared.replicationId
  offset := spared.offset
  others other differ := by
    rw [← spared.others other differ]
    exact after.outboxes.frames_push_of_ne box other frame (Ne.symm differ)

end Spared

variable {server after : Server} {client : Client}

private theorem Spared.deliver (replica : server.role.isPrimary = false)
    (spared : Spared client.outbox server after) (outcome : Outcome) :
    Spared client.outbox server (after.deliver client outcome) := by
  cases outcome with
  | silent => exact spared
  | reply value => exact spared.push _
  | sync announcement =>
    have queued := (spared.push (.value announcement)).push (.snapshot Snapshot.empty)
    have same := register_of_replica (queued.role ▸ replica) client.address client.outbox
    rw [Server.deliver, same]
    exact queued

theorem spared_serveOne (replica : server.role.isPrimary = false) (now : Nat) (value : Value) :
    Spared client.outbox server (serveOne now client value server).2 := by
  have served : Spared client.outbox server (server.serve now value).2 := by
    rw [serve_snd_of_replica now replica]
    exact (Spared.refl client.outbox server).keys _
  rcases serveOne_cases now client value server with ⟨outcome, done⟩ | ⟨refusal, done⟩ | done
  · rw [done]
    exact served.deliver replica outcome
  · rw [done]
    exact served.push _
  · rw [done]
    exact served

end Server

namespace Connection

variable {connection : Connection} {server : Server}

private theorem spared_receive (isClient : connection.kind = .client)
    (replica : server.role.isPrimary = false) (now : Nat) (bytes : Bytes) :
    Server.Spared connection.outbox server (connection.receive now bytes server).2 := by
  have each : ∀ value current, Server.Spared connection.outbox server current →
      Server.Spared connection.outbox server (connection.execute now value current).2 := by
    intro value current spared
    have served := @Server.spared_serveOne current connection.client (spared.role ▸ replica) now value
    rw [execute, isClient]
    exact spared.trans served
  have ran := Server.runUntil_keeps each (Value.decoded bytes).values (.refl _ _)
  rw [receive_eq]
  dsimp only
  split
  · rw [finish_of_replica]
    · exact ran
    · exact ran.role ▸ replica
  · exact ran

private theorem receive_fst_of_link (isLink : connection.kind = .primary)
    (replica : server.role.isPrimary = false) (now : Nat) (bytes : Bytes) :
    let held := Value.decoded bytes
    (connection.receive now bytes server).1 = if held.Proceeds then some held.rest else none := by
  intro held
  obtain ⟨proceeds, _⟩ := receive_processed isLink replica now bytes
  cases received : connection.receive now bytes server with
  | mk pending after =>
  rw [received] at proceeds
  cases pending with
  | none => exact (if_neg fun opened => by simpa using proceeds.mpr opened).symm
  | some rest =>
    obtain ⟨_, _, same⟩ := Server.settle_fst_of_some
      (congrArg Prod.fst (settle_of_receive_some received))
    rw [if_pos (proceeds.mp rfl)]
    exact congrArg some same.symm

end Connection

/-- A link as its peer knows it: what is kept of the bytes sent, and all that is written back. -/
structure Link where
  name : String
  pending : Pending
  written : List Frame
deriving DecidableEq

/-- How far a replica has come along the stream that it follows, and its links, the newest first. -/
structure Reception where
  offset : UInt64
  links : List Link
deriving DecidableEq

namespace Link

/-- The link that a connection is, unless it is a client's. -/
def ofConnection? (outboxes : Outboxes) (connection : Connection) : Option Link :=
  match connection.kind with
  | .client => none
  | .primary => some ⟨connection.name, connection.pending, outboxes.frames connection.outbox⟩

/-- Put a link in the place of the one that was opened last under its name. -/
def replace (link : Link) : List Link → List Link
  | [] => []
  | first :: rest => if first.name = link.name then link :: rest else first :: replace link rest

private theorem replace_self {link : Link} {links : List Link}
    (found : links.find? (·.name = link.name) = some link) : replace link links = links := by
  induction links with
  | nil => rfl
  | cons first rest ih =>
    by_cases here : first.name = link.name
    · obtain rfl : first = link := by simpa [here] using found
      simp [replace]
    · simpa [replace, here] using ih (by simpa [here] using found)

variable {connections : List Connection} {connection : Connection} {name : String}
  {before after : Outboxes}

private theorem find?_ofConnection? (outboxes : Outboxes)
    (found : connections.find? (·.name = name) = some connection) (isLink : connection.kind = .primary) :
    (connections.filterMap (ofConnection? outboxes)).find? (·.name = name) =
      some ⟨name, connection.pending, outboxes.frames connection.outbox⟩ := by
  induction connections with
  | nil => cases found
  | cons first rest ih =>
    by_cases here : first.name = name
    · obtain rfl : first = connection := by simpa [here] using found
      simp [ofConnection?, isLink, here]
    · have behind := ih (by simpa [here] using found)
      cases kind : first.kind <;> simpa [ofConnection?, kind, here] using behind

private theorem find?_ofConnection?_of_none (outboxes : Outboxes)
    (absent : connections.find? (·.name = name) = none) :
    (connections.filterMap (ofConnection? outboxes)).find? (·.name = name) = none := by
  induction connections with
  | nil => rfl
  | cons first rest ih =>
    by_cases here : first.name = name
    · simp [here] at absent
    · have behind := ih (by simpa [here] using absent)
      cases kind : first.kind <;> simpa [ofConnection?, kind, here] using behind

/-- Where one queue alone has changed, and what is pending on its connection, the one link that the
connection is has changed, and none if it is a client's. -/
theorem filterMap_updateNamed (found : connections.find? (·.name = name) = some connection)
    (distinct : (connections.map Connection.outbox).Nodup)
    (others : ∀ box, box ≠ connection.outbox → after.frames box = before.frames box)
    (pending : Pending) :
    (Network.updateNamed name ({ · with pending }) connections).filterMap (ofConnection? after) =
      let links := connections.filterMap (ofConnection? before)
      match connection.kind with
      | .client => links
      | .primary =>
        replace ⟨name, pending, after.frames connection.outbox⟩ links := by
  induction connections with
  | nil => cases found
  | cons first rest ih =>
    obtain ⟨alone, apart⟩ := List.nodup_cons.mp distinct
    unfold Network.updateNamed
    by_cases here : first.name = name
    · obtain rfl : first = connection := by simpa [here] using found
      have same : rest.filterMap (ofConnection? after) = rest.filterMap (ofConnection? before) := by
        apply List.filterMap_congr
        intro other member
        have differ : other.outbox ≠ first.outbox := fun same =>
          alone (same ▸ List.mem_map_of_mem member)
        simp only [ofConnection?, others other.outbox differ]
      rw [if_pos here]
      cases kind : first.kind <;> simp [List.filterMap_cons, ofConnection?, kind, same, replace, here]
    · have behind : rest.find? (·.name = name) = some connection := by simpa [here] using found
      have differ : first.outbox ≠ connection.outbox := fun same =>
        alone (same ▸ List.mem_map_of_mem (List.mem_of_find?_eq_some behind))
      have later := ih behind apart
      rw [if_neg here]
      cases whose : connection.kind <;> cases kind : first.kind <;>
        simpa [ofConnection?, kind, whose, replace, here, others first.outbox differ] using later

end Link

namespace Reception

def attach (reception : Reception) (name : String) : Reception :=
  { reception with links := ⟨name, some [], []⟩ :: reception.links }

/-- Bytes arrive on a link: what they hold is processed, and the requests for the offset are
answered on that link. -/
def send (reception : Reception) (name : String) (content : Bytes) : Reception :=
  match reception.links.find? (·.name = name) with
  | none => reception
  | some link =>
    match link.pending with
    | none => reception
    | some pending =>
      let held := Value.decoded (pending ++ content)
      let done := Value.processed held.values
      { offset := reception.offset + Value.counted done
        links := Link.replace
          ⟨name, if held.Proceeds then some held.rest else none,
            link.written ++ (Value.acknowledgements reception.offset done).map .value⟩
          reception.links }

def finish (reception : Reception) (name : String) : Reception :=
  match reception.links.find? (·.name = name) with
  | none => reception
  | some link => { reception with links := Link.replace ⟨name, none, link.written⟩ reception.links }

/-- What a step comes to where nobody but the primary sends. -/
def step (reception : Reception) : Network.Step → Reception
  | .openPrimary name buffer => (reception.attach name).send name buffer
  | .send name content => reception.send name content
  | .finish name => reception.finish name
  | .openClient _ | .advance _ => reception

end Reception

namespace Network

/-- What a replica has of its links. -/
def reception (network : Network) : Reception :=
  ⟨network.server.offset, network.connections.filterMap (Link.ofConnection? network.server.outboxes)⟩

/-- Whether a step is a client's: it opens a client's connection, or it happens on one. -/
def isOfClient (network : Network) : Step → Bool
  | .openClient _ => true
  | .send name _ | .finish name => (network.find? name).any (·.kind == .client)
  | .openPrimary _ _ | .advance _ => false

/-- The steps of a run that are no client's. -/
def withoutClients (network : Network) : List Step → List Step
  | [] => []
  | step :: rest =>
    let later := (network.step step).withoutClients rest
    if network.isOfClient step then later else step :: later

variable {network : Network} {history : List Event} {connection : Connection} {name : String}

private theorem links_create (outboxes : Outboxes) (connections : List Connection) :
    connections.filterMap (Link.ofConnection? outboxes.create) =
      connections.filterMap (Link.ofConnection? outboxes) := by
  apply List.filterMap_congr
  intro connection _
  simp only [Link.ofConnection?, Outboxes.frames_create]

private theorem reception_connect_client (network : Network) (name : String) :
    (network.connect name .client).reception = network.reception := by
  simp [reception, connect, List.filterMap_cons, Link.ofConnection?, links_create]

private theorem reception_connect_primary (network : Network) (name : String) :
    (network.connect name .primary).reception = network.reception.attach name := by
  simp [reception, connect, Reception.attach, Link.ofConnection?, links_create, Outboxes.frames_next]

private theorem reception_setPending_of_client (found : network.find? connection.name = some connection)
    (isClient : connection.kind = .client) (distinct : (network.connections.map Connection.outbox).Nodup)
    {after : Server} (spared : Server.Spared connection.outbox network.server after) (pending : Pending) :
    reception { network.setPending connection.name pending with server := after } = network.reception := by
  have links := Link.filterMap_updateNamed found distinct spared.others pending
  rw [isClient] at links
  rw [reception, reception, spared.offset]
  exact congrArg (Reception.mk _) links

private theorem reception_setPending_of_link (found : network.find? connection.name = some connection)
    (isLink : connection.kind = .primary) (distinct : (network.connections.map Connection.outbox).Nodup)
    {after : Server} (others : ∀ box, box ≠ connection.outbox →
      after.outboxes.frames box = network.server.outboxes.frames box) (pending : Pending) :
    reception { network.setPending connection.name pending with server := after } =
      ⟨after.offset, Link.replace ⟨connection.name, pending, after.outboxes.frames connection.outbox⟩
        network.reception.links⟩ := by
  have links := Link.filterMap_updateNamed found distinct others pending
  rw [isLink] at links
  exact congrArg (Reception.mk _) links

private theorem reception_send (routed : Routed history network)
    (replica : network.server.role.isPrimary = false)
    (content : Bytes) (notClient : (network.find? name).any (·.kind == .client) = false) :
    (network.send name content).reception = network.reception.send name content := by
  cases found : network.find? name with
  | none =>
    have absent := Link.find?_ofConnection?_of_none network.server.outboxes found
    simp [send, found, Reception.send, reception, absent]
  | some connection =>
    obtain ⟨member, rfl⟩ := find?_spec found
    have isLink : connection.kind = .primary := by
      cases kind : connection.kind with
      | client => simp [found, kind] at notClient
      | primary => rfl
    have known := Link.find?_ofConnection? network.server.outboxes found isLink
    cases pending : connection.pending with
    | none => simp [send, found, pending, Reception.send, reception, known]
    | some held =>
      obtain ⟨_, processed⟩ := connection.receive_processed isLink replica network.now (held ++ content)
      have kept := connection.receive_fst_of_link isLink replica network.now (held ++ content)
      have written := processed.written (routed.opened connection member)
      have replaced := reception_setPending_of_link found isLink routed.distinct processed.others
      rw [send_of_pending found pending, replaced, written, processed.offset, kept]
      simp [Reception.send, reception, known, pending]

private theorem reception_send_of_client (routed : Routed history network)
    (replica : network.server.role.isPrimary = false)
    (found : network.find? connection.name = some connection) (isClient : connection.kind = .client)
    (content : Bytes) : (network.send connection.name content).reception = network.reception := by
  cases pending : connection.pending with
  | none => simp [send, found, pending]
  | some held =>
    rw [send_of_pending found pending]
    exact reception_setPending_of_client found isClient routed.distinct
      (connection.spared_receive isClient replica network.now _) _

private theorem reception_finish (routed : Routed history network)
    (replica : network.server.role.isPrimary = false)
    (notClient : (network.find? name).any (·.kind == .client) = false) :
    (network.finish name).reception = network.reception.finish name := by
  cases found : network.find? name with
  | none =>
    have absent := Link.find?_ofConnection?_of_none network.server.outboxes found
    simp [finish, found, Reception.finish, reception, absent]
  | some connection =>
    obtain ⟨_, rfl⟩ := find?_spec found
    have isLink : connection.kind = .primary := by
      cases kind : connection.kind with
      | client => simp [found, kind] at notClient
      | primary => rfl
    have known := Link.find?_ofConnection? network.server.outboxes found isLink
    cases opened : connection.isOpen with
    | true =>
      rw [finish_of_open found opened, connection.finish_of_replica replica,
        reception_setPending_of_link found isLink routed.distinct fun _ _ => rfl]
      simp [Reception.finish, reception, known]
    | false =>
      have closed : connection.pending = none := by simpa [Connection.isOpen] using opened
      rw [closed] at known
      rw [finish_of_closed found opened]
      have same := @Link.replace_self ⟨connection.name, none, _⟩ _ known
      simp [Reception.finish, reception, known, same]

private theorem reception_finish_of_client (routed : Routed history network)
    (replica : network.server.role.isPrimary = false)
    (found : network.find? connection.name = some connection) (isClient : connection.kind = .client) :
    (network.finish connection.name).reception = network.reception := by
  cases opened : connection.isOpen with
  | true =>
    rw [finish_of_open found opened, connection.finish_of_replica replica]
    exact reception_setPending_of_client found isClient routed.distinct (.refl _ _) none
  | false => rw [finish_of_closed found opened]

/-- A client's step is none for the links of a replica. -/
theorem reception_step_of_client (routed : Routed history network)
    (replica : network.server.role.isPrimary = false) {step : Step}
    (isClient : network.isOfClient step = true) : (network.step step).reception = network.reception := by
  cases step with
  | openClient name =>
    rw [Network.step, openConnection_nil]
    exact reception_connect_client network name
  | openPrimary name buffer => cases isClient
  | send name content =>
    obtain ⟨connection, found, kind⟩ := (Option.any_eq_true _ _).mp isClient
    obtain ⟨_, rfl⟩ := find?_spec found
    exact reception_send_of_client routed replica found (beq_iff_eq.mp kind) content
  | finish name =>
    obtain ⟨connection, found, kind⟩ := (Option.any_eq_true _ _).mp isClient
    obtain ⟨_, rfl⟩ := find?_spec found
    exact reception_finish_of_client routed replica found (beq_iff_eq.mp kind)
  | advance milliseconds => cases isClient

/-- What any other step comes to, the links show alone. -/
theorem reception_step (routed : Routed history network)
    (replica : network.server.role.isPrimary = false) {step : Step}
    (other : network.isOfClient step = false) :
    (network.step step).reception = network.reception.step step := by
  cases step with
  | openClient name => cases other
  | openPrimary name buffer =>
    have sent := network.send_openConnection name .primary [] buffer
    rw [openConnection_nil, List.nil_append] at sent
    have isLink : ((network.connect name .primary).find? name).any (·.kind == .client) = false := by
      simp [find?, connect]
    rw [Network.step, ← sent, reception_send (routed.connect name .primary) replica buffer isLink,
      reception_connect_primary]
    rfl
  | send name content => exact reception_send routed replica content other
  | finish name => exact reception_finish routed replica other
  | advance milliseconds => rfl

end Network

end RespKeyspace
