import Mathlib.Data.List.Nodup
import RespKeyspace.Proofs.Session.Pieces

/-! Every connection has an outbox of its own, and what is in a client's outbox is what the
events of the history sent there, piece after piece. -/

namespace RespKeyspace

namespace Connection

variable (connection : Connection) {server : Server} {address : String} {box : OutboxId}

theorem outboxes_finish (server : Server) : (connection.finish server).outboxes = server.outboxes := by
  unfold finish
  cases connection.kind <;> rfl

theorem keys_finish (server : Server) : (connection.finish server).keys = server.keys := by
  unfold finish
  cases connection.kind <;> rfl

/-- When a client's connection ends, the replica under its name is forgotten, and no other. -/
theorem replica?_finish_iff :
    (connection.finish server).replica? address = some box ↔
      server.replica? address = some box ∧ (connection.kind = .client → address ≠ connection.name) := by
  unfold finish
  cases connection.kind with
  | client => by_cases same : address = connection.name <;> simp [same]
  | primary => simp

end Connection

namespace Network

theorem map_setPending {Image : Type} {image : Connection → Image} {pending : Pending}
    (same : ∀ connection, image { connection with pending } = image connection) (name : String)
    (connections : List Connection) :
    (updateNamed name ({ · with pending }) connections).map image = connections.map image := by
  induction connections with
  | nil => rfl
  | cons first rest ih =>
    unfold updateNamed
    split
    · simp [same]
    · simp [ih]

/-- How connections, replicas and outboxes belong together after a history. -/
structure Routed (history : List Event) (network : Network) : Prop where
  grounded : network.Grounded
  earlier : ∀ event ∈ history, event.connection.outbox < network.server.outboxes.next ∧
    ∀ address box, event.server.replica? address = some box → box < network.server.outboxes.next
  distinct : (network.connections.map Connection.outbox).Nodup
  opened : ∀ connection ∈ network.connections,
    network.server.outboxes.isOpen connection.outbox = true
  recorded : ∀ connection ∈ network.connections, ∀ address,
    network.server.replica? address = some connection.outbox →
      connection.kind = .client ∧ address = connection.name ∧ connection.subscribed history = true
  queued : ∀ connection ∈ network.connections, connection.kind = .client →
    network.server.outboxes.frames connection.outbox =
      (history.flatMap (·.pieces connection)).flatMap Piece.frames
  announced : ∀ connection ∈ network.connections,
    Piece.Announced (history.flatMap (·.pieces connection))

namespace Routed

variable {history : List Event} {network : Network}

theorem start {server : Server} (grounded : server.Grounded) : Routed [] (start server) where
  grounded := grounded_start grounded
  earlier := by simp
  distinct := List.nodup_nil
  opened := by simp [Network.start]
  recorded := by simp [Network.start]
  queued := by simp [Network.start]
  announced := by simp [Network.start]

theorem eq_of_outbox (routed : Routed history network) {first second : Connection}
    (one : first ∈ network.connections) (other : second ∈ network.connections)
    (same : first.outbox = second.outbox) : first = second :=
  List.inj_on_of_nodup_map routed.distinct one other same

theorem queuedFor_eq (routed : Routed history network) {connection : Connection}
    (member : connection ∈ network.connections) (isClient : connection.kind = .client) :
    network.queuedFor connection =
      (history.flatMap (·.pieces connection)).flatMap Piece.encode := by
  rw [queuedFor, routed.queued connection member isClient, List.flatMap_assoc]
  rfl

private theorem pieces_fresh (routed : Routed history network) {connection : Connection}
    (fresh : connection.outbox = network.server.outboxes.next) :
    history.flatMap (·.pieces connection) = [] := by
  apply List.flatMap_eq_nil_iff.mpr
  intro event member
  obtain ⟨own, replicas⟩ := routed.earlier event member
  have unfed : event.feeds connection = false := by
    apply beq_eq_false_iff_ne.mpr
    intro found
    exact absurd (replicas _ _ found) (by simp [fresh])
  have other : event.isOn connection = false := by
    apply beq_eq_false_iff_ne.mpr
    rw [fresh]
    exact Nat.ne_of_lt own
  simp [Event.pieces, unfed, other]

theorem not_subscribed_fresh (routed : Routed history network) {connection : Connection}
    (fresh : connection.outbox = network.server.outboxes.next) :
    connection.subscribed history = false := by
  rw [Bool.eq_false_iff, Ne, Connection.subscribed_iff]
  rintro ⟨event, member, own, _⟩
  have earlier := (routed.earlier event member).1
  rw [beq_iff_eq.mp own, fresh] at earlier
  exact Nat.lt_irrefl _ earlier

theorem connect (routed : Routed history network) (name : String) (kind : ConnectionKind) :
    Routed history (network.connect name kind) where
  grounded := by
    rw [← openConnection_nil]
    exact routed.grounded.openConnection name kind []
  earlier event member := by
    obtain ⟨own, replicas⟩ := routed.earlier event member
    have next : (network.connect name kind).server.outboxes.next = network.server.outboxes.next + 1 :=
      network.server.outboxes.next_create
    rw [next]
    exact ⟨Nat.lt_succ_of_lt own, fun address box found =>
      Nat.lt_succ_of_lt (replicas address box found)⟩
  distinct := by
    refine List.nodup_cons.mpr ⟨?_, routed.distinct⟩
    intro member
    obtain ⟨connection, inside, same⟩ := List.mem_map.mp member
    exact absurd (routed.grounded.connections connection inside) (by simp [same])
  opened connection member := by
    change network.server.outboxes.create.isOpen _ = true
    rcases List.mem_cons.mp member with rfl | inside
    · exact network.server.outboxes.isOpen_create_next
    · rw [Outboxes.isOpen_create, routed.opened connection inside, Bool.or_true]
  recorded connection member address found := by
    rcases List.mem_cons.mp member with rfl | inside
    · exact absurd (routed.grounded.server address _ found) (Nat.lt_irrefl _)
    · exact routed.recorded connection inside address found
  queued connection member isClient := by
    change network.server.outboxes.create.frames _ = _
    rw [Outboxes.frames_create]
    rcases List.mem_cons.mp member with rfl | inside
    · rw [Outboxes.frames_next, routed.pieces_fresh rfl]
      rfl
    · exact routed.queued connection inside isClient
  announced connection member := by
    rcases List.mem_cons.mp member with rfl | inside
    · rw [routed.pieces_fresh rfl]
      simp [Piece.Announced]
    · exact routed.announced connection inside

theorem places_eq (routed : Routed history network) {event : Event} (met : network.Meets event)
    {connection : Connection} (member : connection ∈ network.connections) :
    event.server.places connection.outbox = if event.feeds connection then 1 else 0 := by
  have sole := routed.recorded connection member
  rw [← met.server] at sole
  cases fed : event.feeds connection with
  | true => exact Server.places_of_sole (beq_iff_eq.mp fed) fun address also => (sole address also).2.1
  | false =>
    apply Server.places_of_absent
    intro address found
    obtain rfl := (sole address found).2.1
    exact absurd found (beq_eq_false_iff_ne.mp fed)

private theorem subscribed_of_copy (routed : Routed history network) {event : Event}
    (met : network.Meets event)
    {connection : Connection} (member : connection ∈ network.connections) {piece : Piece}
    (inside : piece ∈ event.pieces connection) (isCopy : piece.isCopy = true) :
    connection.subscribed history = true := by
  have fed := event.feeds_of_copy inside isCopy
  rw [Event.feeds, beq_iff_eq, met.server] at fed
  exact (routed.recorded connection member _ fed).2.2

theorem executed (routed : Routed history network) {event : Event} (met : network.Meets event) :
    Routed (history ++ [event]) { network with server := event.after } := by
  have made := routed.grounded.connections event.connection met.member
  have next : event.after.outboxes.next = network.server.outboxes.next := by
    rw [event.effect.next, met.server]
  have replicas : ∀ address box, event.after.replica? address = some box →
      (event.subscribes = true ∧ address = event.connection.name ∧ event.connection.outbox = box) ∨
        network.server.replica? address = some box := by
    rw [← met.server]
    exact fun _ _ => Event.replica?_after
  constructor
  case grounded =>
    refine ⟨?_, ?_⟩
    · intro address box found
      rw [next]
      rcases replicas address box found with ⟨_, _, rfl⟩ | before
      · exact made
      · exact routed.grounded.server address box before
    · dsimp only
      rw [next]
      exact routed.grounded.connections
  case earlier =>
    dsimp only
    rw [next]
    refine List.forall_mem_append.mpr ⟨routed.earlier, List.forall_mem_singleton.mpr ⟨made, ?_⟩⟩
    rw [met.server]
    exact routed.grounded.server
  case distinct => exact routed.distinct
  case opened =>
    intro connection member
    exact (event.effect.isOpen _).trans (met.server ▸ routed.opened connection member)
  case recorded =>
    intro connection member address found
    rcases replicas address _ found with ⟨subscribed, rfl, same⟩ | before
    · obtain ⟨isClient, asked⟩ := Bool.and_eq_true_iff.mp subscribed
      obtain rfl := routed.eq_of_outbox met.member member same
      exact ⟨beq_iff_eq.mp isClient, rfl, Connection.subscribed_here asked⟩
    · obtain ⟨isClient, same, asked⟩ := routed.recorded connection member address before
      exact ⟨isClient, same, connection.subscribed_later event asked⟩
  case queued =>
    intro connection member isClient
    have opened := met.server ▸ routed.opened connection member
    have added := Event.frames_after opened (routed.places_eq met member) fun own =>
      routed.eq_of_outbox met.member member (beq_iff_eq.mp own) ▸ isClient
    rw [added, met.server, routed.queued connection member isClient]
    simp
  case announced =>
    intro connection member
    rw [List.flatMap_append, List.flatMap_singleton]
    refine (routed.announced connection member).append ?_
    intro piece inside isCopy
    obtain ⟨asking, before, own, asked⟩ :=
      Connection.subscribed_iff.mp (routed.subscribed_of_copy met member inside isCopy)
    exact ⟨_, List.mem_flatMap.mpr ⟨asking, before, asking.resync_mem_pieces own asked⟩⟩

theorem setPending (routed : Routed history network) (name : String) (pending : Pending) :
    Routed history (network.setPending name pending) where
  grounded := ⟨routed.grounded.server,
    forall_updateNamed (fun _ made => made) routed.grounded.connections⟩
  earlier := routed.earlier
  distinct := by
    have same : (network.setPending name pending).connections.map Connection.outbox =
        network.connections.map Connection.outbox :=
      map_setPending (fun _ => rfl) name network.connections
    rw [same]
    exact routed.distinct
  opened := forall_updateNamed (fun _ opened => opened) routed.opened
  recorded := forall_updateNamed (fun _ recorded => recorded) routed.recorded
  queued := forall_updateNamed (fun _ queued => queued) routed.queued
  announced := forall_updateNamed (fun _ announced => announced) routed.announced

theorem finish (routed : Routed history network) (connection : Connection) :
    Routed history { network with server := connection.finish network.server } := by
  have outboxes := connection.outboxes_finish network.server
  constructor
  case grounded =>
    refine ⟨?_, ?_⟩
    · intro address box found
      rw [outboxes]
      exact routed.grounded.server address box (connection.replica?_finish_iff.mp found).1
    · dsimp only
      rw [outboxes]
      exact routed.grounded.connections
  case earlier =>
    dsimp only
    rw [outboxes]
    exact routed.earlier
  case distinct => exact routed.distinct
  case opened =>
    dsimp only
    rw [outboxes]
    exact routed.opened
  case recorded =>
    intro other member address found
    exact routed.recorded other member address (connection.replica?_finish_iff.mp found).1
  case queued =>
    dsimp only
    rw [outboxes]
    exact routed.queued
  case announced => exact routed.announced

theorem keeps : Keeps Routed where
  connected routed name kind := routed.connect name kind
  executed routed _ met := routed.executed met
  kept routed connection _ _ rest := routed.setPending connection.name (some rest)
  closed routed connection _ _ := (routed.setPending connection.name none).finish connection
  advanced routed _ :=
    ⟨⟨routed.grounded.server, routed.grounded.connections⟩, routed.earlier, routed.distinct,
      routed.opened, routed.recorded, routed.queued, routed.announced⟩

/-- Whatever peers do, what is in the outbox of a client is what events sent there. -/
theorem run {server : Server} (grounded : server.Grounded) (steps : List Step) :
    Routed ((Network.start server).events steps) ((Network.start server).run steps) :=
  keeps.run (start grounded) steps

end Routed

end Network

end RespKeyspace
