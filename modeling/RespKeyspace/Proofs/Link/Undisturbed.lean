import RespKeyspace.Proofs.Link.Reception
import RespKeyspace.Proofs.Serving.Report

/-! A replica with clients. What the replica takes from its links and writes to them goes by the
links alone: whatever its clients do, it is as if none had ever connected. -/

namespace RespKeyspace

namespace Event

variable {event : Event}

private theorem role_after (replica : event.server.role.isPrimary = false) :
    event.after.role = event.server.role := by
  unfold Event.after Connection.execute
  cases event.connection.kind with
  | client => exact (Server.spared_serveOne replica event.now event.value).role
  | primary =>
    dsimp only
    rw [Server.followOne_eq replica]
    cases event.value.isRequest <;> rfl

end Event

namespace Network

variable {server : Server} {network : Network} {history : List Event}

theorem keeps_role {role : Role} (replica : role.isPrimary = false) :
    Keeps fun history network => network.server.role = role ∧
      ∀ event ∈ history, event.server.role = role where
  connected same _ _ := same
  executed same event met := by
    have here : event.server.role = role := met.server ▸ same.1
    exact ⟨(event.role_after (here ▸ replica)).trans here, List.forall_mem_append.mpr
      ⟨same.2, List.forall_mem_singleton.mpr here⟩⟩
  kept same _ _ _ _ := same
  closed same connection _ _ := by
    refine ⟨?_, same.2⟩
    dsimp only
    rw [connection.finish_of_replica (same.1 ▸ replica)]
    exact same.1
  advanced same _ := same

/-- A replica comes as far along the stream, and writes to its links what it writes, by the steps
that are no client's. -/
theorem reception_run (routed : Routed history network)
    (replica : network.server.role.isPrimary = false) (steps : List Step) :
    (network.run steps).reception =
      (network.withoutClients steps).foldl Reception.step network.reception := by
  induction steps generalizing history network with
  | nil => rfl
  | cons step rest ih =>
    have still := (keeps_role replica).step (⟨rfl, by simp⟩ : _ ∧ ∀ event ∈ [], _) step
    have later := ih (Routed.keeps.step routed step) (still.1 ▸ replica)
    change ((network.step step).run rest).reception = _
    rw [later, withoutClients]
    cases isClient : network.isOfClient step with
    | true => simp [reception_step_of_client routed replica isClient]
    | false => simp [reception_step routed replica isClient]

private theorem openClient_notMem_withoutClients (network : Network) (name : String)
    (steps : List Step) :
    .openClient name ∉ network.withoutClients steps := by
  induction steps generalizing network with
  | nil => simp [withoutClients]
  | cons step rest ih =>
    have later := ih (network.step step)
    rw [withoutClients]
    cases isClient : network.isOfClient step with
    | true => simpa [isClient] using later
    | false =>
      have other : .openClient name ≠ step := by
        rintro rfl
        cases isClient
      simpa [isClient, other] using later

/-- Whether all connections are links. -/
def Linked (network : Network) : Prop :=
  ∀ connection ∈ network.connections, connection.kind = .primary

private theorem Linked.isOfClient (linked : network.Linked) {step : Step}
    (other : ∀ name, .openClient name ≠ step) : network.isOfClient step = false := by
  have found : ∀ name, (network.find? name).any (·.kind == .client) = false := by
    intro name
    cases found : network.find? name with
    | none => rfl
    | some connection => simp [linked connection (find?_spec found).1]
  cases step with
  | openClient name => exact (other name rfl).elim
  | openPrimary name buffer => rfl
  | send name content => exact found name
  | finish name => exact found name
  | advance milliseconds => rfl

theorem Linked.step (linked : network.Linked) {step : Step}
    (other : ∀ name, .openClient name ≠ step) : (network.step step).Linked := by
  cases step with
  | openClient name => exact (other name rfl).elim
  | openPrimary name buffer => exact List.forall_mem_cons.mpr ⟨rfl, linked⟩
  | send name content =>
    change (network.send name content).Linked
    unfold send
    split
    · exact linked
    · split
      · exact linked
      · exact forall_updateNamed (fun _ isLink => isLink) linked
  | finish name =>
    change (network.finish name).Linked
    rcases network.finish_cases name with same | ⟨connection, closed⟩
    · rw [same]
      exact linked
    · rw [closed]
      exact forall_updateNamed (fun _ isLink => isLink) linked
  | advance milliseconds => exact linked

theorem Linked.run (linked : network.Linked) {steps : List Step}
    (others : ∀ name, .openClient name ∉ steps) :
    network.withoutClients steps = steps ∧ (network.run steps).Linked := by
  induction steps generalizing network with
  | nil => exact ⟨rfl, linked⟩
  | cons step rest ih =>
    have other : ∀ name, .openClient name ≠ step := fun name same =>
      others name (same ▸ List.mem_cons_self)
    obtain ⟨left, behind⟩ := ih (linked.step other) fun name member =>
      others name (List.mem_cons_of_mem step member)
    refine ⟨?_, behind⟩
    rw [withoutClients, linked.isOfClient other, left]
    rfl

end Network

namespace Server

/-- What stays of a replica as long as it runs: its role and its replication id, and that it neither
records any replica of its own nor reports one, in the fields of its report and in the text. -/
structure Remains (first server : Server) : Prop where
  role : server.role = first.role
  replicationId : server.replicationId = first.replicationId
  unrecorded : server.role.registry? = none
  reported : ("connected_slaves", "0") ∈ server.replicationFields
  shown : Text.HasLine "connected_slaves:0" server.replicationReport

variable {first server : Server}

theorem registry?_of_replica (replica : server.role.isPrimary = false) :
    server.role.registry? = none := by
  cases role : server.role with
  | primary replicas => simp [role, Role.isPrimary] at replica
  | replica followed => rfl

private theorem replica?_of_replica (replica : server.role.isPrimary = false) (address : String) :
    server.replica? address = none := by
  rw [replica?, registry?_of_replica replica]
  rfl

private theorem connected_of_replica (replica : server.role.isPrimary = false) :
    toString server.role.connected = "0" := by
  rw [Role.connected, registry?_of_replica replica]
  rfl

theorem remains_of_role (replica : first.role.isPrimary = false) (role : server.role = first.role)
    (replicationId : server.replicationId = first.replicationId) : first.Remains server where
  role := role
  replicationId := replicationId
  unrecorded := registry?_of_replica (role ▸ replica)
  reported := by
    have connected : toString server.role.connected = "0" := connected_of_replica (role ▸ replica)
    simp [replicationFields, connected]
  shown := by
    have line := hasLine_connected server
    rw [connected_of_replica (role ▸ replica)] at line
    simpa using line

end Server

namespace Event

private theorem pieces_of_unfed {history : List Event} {connection : Connection}
    (unfed : ∀ event ∈ history, event.feeds connection = false) :
    history.flatMap (·.pieces connection) =
      (history.filter (·.isOn connection)).filterMap answer? := by
  have nobody : history.filter (·.feeds connection) = [] :=
    List.filter_eq_nil_iff.mpr fun event member => by simp [unfed event member]
  have copies := Event.copies_of_pieces connection history
  rw [nobody] at copies
  have noCopy := List.filter_eq_nil_iff.mp copies
  rw [← Event.answers_of_pieces, List.filter_eq_self.mpr]
  intro piece member
  simpa using noCopy piece member

end Event

namespace Network

/-- Whatever clients of a replica do, the replica comes as far along the stream that it follows, and
keeps of its links and writes to them the same, as in the run without any step of a client, in which
no client ever connects. Whenever anything is executed it plays its role under its replication id,
without a replica of its own, and its report, with which it answers, has a line that says so; and no
client is sent anything but the answers to its own requests, be it one that asked for a full copy. -/
theorem clients_leave_links_undisturbed {server : Server} (replica : server.role.isPrimary = false)
    (steps : List Step) :
    let network := (start server).run steps
    let alone := (start server).run ((start server).withoutClients steps)
    let history := (start server).events steps
    alone.Linked ∧ network.reception = alone.reception ∧ server.Remains network.server ∧
      (∀ event ∈ history, server.Remains event.server ∧
        (event.value.command = .ok .info →
          event.answer? =
            some (.answer (.bulk (Bytes.ofText event.server.replicationReport))))) ∧
      ∀ connection ∈ network.connections, connection.kind = .client →
        network.server.outboxes.frames connection.outbox =
          ((history.filter (·.isOn connection)).filterMap Event.answer?).flatMap Piece.frames := by
  intro network alone history
  have grounded : server.Grounded := by
    intro address box found
    rw [Server.replica?_of_replica replica] at found
    cases found
  have linked : (start server).Linked := List.forall_mem_nil _
  have nothing : Routed [] (start server) := .start grounded
  obtain ⟨left, aloneLinked⟩ := linked.run fun name =>
    openClient_notMem_withoutClients (start server) name steps
  have followed := reception_run nothing replica steps
  have followedAlone := reception_run nothing replica ((start server).withoutClients steps)
  rw [left] at followedAlone
  obtain ⟨role, roles⟩ := (keeps_role replica).run (⟨rfl, by simp⟩ :
    (start server).server.role = server.role ∧ ∀ event ∈ [], _) steps
  obtain ⟨id, ids⟩ := (keeps_replicationId server.replicationId).run (⟨rfl, by simp⟩ :
    (start server).server.replicationId = server.replicationId ∧ ∀ event ∈ [], _) steps
  have routed : Routed history network := .run grounded steps
  refine ⟨aloneLinked, followed.trans followedAlone.symm, Server.remains_of_role replica role id, ?_, ?_⟩
  · intro event member
    refine ⟨Server.remains_of_role replica (roles event member) (ids event member), ?_⟩
    intro asked
    rw [event.answer?_of_ok asked]
    rfl
  · intro connection member isClient
    have unfed : ∀ event ∈ history, event.feeds connection = false := by
      intro event happened
      have same : event.server.role = server.role := roles event happened
      rw [Event.feeds, Server.replica?_of_replica (same ▸ replica)]
      rfl
    rw [routed.queued connection member isClient, Event.pieces_of_unfed unfed]

/-- A client of a replica asks for a full copy, assigns, and is broken off, while a write and a
request for the offset come along the link. -/
theorem synced_client_leaves_link_undisturbed :
    let server := Server.start (.replica ⟨"host", 6379⟩) "id"
    let onLink := (Value.ofWords ["SET", "k", "v"]).encode ++
      (Value.ofWords ["REPLCONF", "GETACK", "*"]).encode
    let steps := [.openPrimary "link" [], .openClient "c",
      .send "c" (Value.ofWords ["PSYNC", "?", "-1"]).encode,
      .send "c" (Value.ofWords ["SET", "k", "w"]).encode,
      .send "link" onLink, .send "c" (Bytes.ofText "garbage\r\n")]
    let network := (start server).run steps
    let connection : Connection := ⟨"c", .client, 1, none⟩
    server.role.isPrimary = false ∧
      network.reception = ⟨64, [⟨"link", some [], [.value (Value.acknowledge 27)]⟩]⟩ ∧
      server.Remains network.server ∧
      network.server.outboxes.frames connection.outbox =
        [.value (.simple "FULLRESYNC id 0"), .snapshot Snapshot.empty, .value (.simple "OK")] := by
  intro server onLink steps network connection
  have member : connection ∈ network.connections := by decide +kernel
  have left : (start server).withoutClients steps = [.openPrimary "link" [], .send "link" onLink] := by
    decide +kernel
  have answers : (((start server).events steps).filter (·.isOn connection)).filterMap Event.answer? =
      [.resync (.simple "FULLRESYNC id 0"), .answer (.simple "OK")] := by decide +kernel
  obtain ⟨_, same, remains, _, queued⟩ := clients_leave_links_undisturbed
    (by rfl : server.role.isPrimary = false) steps
  rw [left] at same
  have sent := queued connection member rfl
  rw [answers] at sent
  exact ⟨rfl, same.trans (by decide +kernel), remains, sent⟩

end Network

end RespKeyspace
