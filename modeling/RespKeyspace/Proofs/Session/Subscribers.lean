import RespKeyspace.Proofs.Session.Routing

/-! The record that a primary keeps of its replicas. With client names that are all different,
it holds the clients that asked for a full copy and are still connected, and no others. -/

namespace RespKeyspace

namespace Network

def clientNames (network : Network) : List String :=
  (network.connections.filter (·.kind == .client)).map Connection.name

private theorem eq_of_client_name {network : Network} (distinct : network.clientNames.Nodup)
    {first second : Connection} (one : first ∈ network.connections)
    (other : second ∈ network.connections) (isClient : first.kind = .client)
    (also : second.kind = .client) (same : first.name = second.name) : first = second :=
  List.inj_on_of_nodup_map distinct (List.mem_filter.mpr ⟨one, by simp [isClient]⟩)
    (List.mem_filter.mpr ⟨other, by simp [also]⟩) same

private theorem clientNames_setPending (network : Network) (name : String) (pending : Pending) :
    (network.setPending name pending).clientNames = network.clientNames := by
  unfold clientNames setPending
  dsimp only
  induction network.connections with
  | nil => rfl
  | cons first rest ih =>
    unfold updateNamed
    split
    · simp [List.filter_cons, apply_ite (List.map Connection.name)]
    · simp [List.filter_cons, apply_ite (List.map Connection.name), ih]

private theorem mem_updateNamed_iff {connections : List Connection} {name : String}
    {change : Connection → Connection} {connection other : Connection}
    (distinct : (connections.map Connection.outbox).Nodup)
    (found : connections.find? (·.name = name) = some connection) :
    other ∈ updateNamed name change connections ↔
      other = change connection ∨ other ∈ connections ∧ other.outbox ≠ connection.outbox := by
  induction connections with
  | nil => cases found
  | cons first rest ih =>
    obtain ⟨absent, distinct⟩ := List.nodup_cons.mp distinct
    have apart : ∀ later ∈ rest, later.outbox ≠ first.outbox := fun later member same =>
      absent (List.mem_map.mpr ⟨later, member, same⟩)
    unfold updateNamed
    by_cases here : first.name = name
    · obtain rfl : first = connection := by simpa [here] using found
      rw [if_pos here, List.mem_cons, List.mem_cons]
      constructor
      · rintro (changed | member)
        · exact .inl changed
        · exact .inr ⟨.inr member, apart other member⟩
      · rintro (changed | ⟨rfl | member, differ⟩)
        · exact .inl changed
        · exact absurd rfl differ
        · exact .inr member
    · have behind : rest.find? (·.name = name) = some connection := by simpa [here] using found
      have differ : first.outbox ≠ connection.outbox :=
        (apart connection (List.mem_of_find?_eq_some behind)).symm
      rw [if_neg here, List.mem_cons, List.mem_cons, ih distinct behind]
      constructor
      · rintro (rfl | changed | ⟨member, apart⟩)
        · exact .inr ⟨.inl rfl, differ⟩
        · exact .inl changed
        · exact .inr ⟨.inr member, apart⟩
      · rintro (changed | ⟨rfl | member, apart⟩)
        · exact .inr (.inl changed)
        · exact .inl rfl
        · exact .inr (.inr ⟨member, apart⟩)

/-- A client's connection that is open, and on which a full copy was asked for. -/
structure Subscriber (history : List Event) (connections : List Connection)
    (connection : Connection) : Prop where
  member : connection ∈ connections
  isClient : connection.kind = .client
  isOpen : connection.isOpen = true
  asked : connection.subscribed history = true

/-- A primary that records the subscribers, under their names and with their outboxes, and
never recorded anything but clients. -/
structure Records (history : List Event) (network : Network) : Prop where
  isPrimary : network.server.role.isPrimary = true
  wasPrimary : ∀ event ∈ history, event.server.role.isPrimary = true
  replica?_iff : network.clientNames.Nodup → ∀ address box,
    network.server.replica? address = some box ↔
      ∃ connection, Subscriber history network.connections connection ∧
        connection.name = address ∧ connection.outbox = box
  wasClient : network.clientNames.Nodup → ∀ event ∈ history, ∀ address box,
    event.server.replica? address = some box →
      (ConnectionKind.client, address, box) ∈ network.connections.map fun connection =>
        (connection.kind, connection.name, connection.outbox)

namespace Records

variable {history : List Event} {network : Network}

theorem start {server : Server} (fresh : server.role = .primary .empty) : Records [] (start server) where
  isPrimary := by simp [Network.start, fresh, Role.isPrimary]
  wasPrimary := by simp
  wasClient := by simp
  replica?_iff _ address box := by
    have none : (Network.start server).server.replica? address = none := by
      simp [Network.start, Server.replica?, fresh, Role.registry?]
    constructor
    · rw [none]
      intro absurd
      cases absurd
    · rintro ⟨connection, subscriber, _⟩
      cases subscriber.member

private theorem nodup_of_connect {name : String} {kind : ConnectionKind}
    (distinct : (network.connect name kind).clientNames.Nodup) : network.clientNames.Nodup :=
  (((List.sublist_cons_self _ _).filter _).map _).nodup distinct

theorem connect (records : Records history network) (routed : Routed history network) (name : String)
    (kind : ConnectionKind) : Records history (network.connect name kind) where
  isPrimary := records.isPrimary
  wasPrimary := records.wasPrimary
  wasClient distinct event member address box found :=
    List.mem_cons_of_mem _ (records.wasClient (nodup_of_connect distinct) event member address box found)
  replica?_iff distinct address box := by
    refine (records.replica?_iff (nodup_of_connect distinct) address box).trans ⟨?_, ?_⟩
    · rintro ⟨connection, ⟨member, isClient, isOpen, asked⟩, same⟩
      exact ⟨connection, ⟨List.mem_cons_of_mem _ member, isClient, isOpen, asked⟩, same⟩
    · rintro ⟨connection, ⟨member, isClient, isOpen, asked⟩, same⟩
      rcases List.mem_cons.mp member with rfl | member
      · rw [routed.not_subscribed_fresh rfl] at asked
        cases asked
      · exact ⟨connection, ⟨member, isClient, isOpen, asked⟩, same⟩

theorem executed (records : Records history network) (routed : Routed history network) {event : Event}
    (met : network.Meets event) :
    Records (history ++ [event]) { network with server := event.after } where
  isPrimary := by
    rw [event.effect.isPrimary, met.server]
    exact records.isPrimary
  wasPrimary := List.forall_mem_append.mpr ⟨records.wasPrimary,
    List.forall_mem_singleton.mpr (met.server ▸ records.isPrimary)⟩
  wasClient distinct := by
    refine List.forall_mem_append.mpr ⟨records.wasClient distinct, List.forall_mem_singleton.mpr ?_⟩
    rw [met.server]
    intro address box found
    obtain ⟨connection, subscriber, rfl, rfl⟩ := (records.replica?_iff distinct address box).mp found
    exact List.mem_map.mpr ⟨connection, subscriber.member, by rw [subscriber.isClient]⟩
  replica?_iff distinct address box := by
    have before := records.replica?_iff distinct
    have isPrimary := records.isPrimary
    rw [← met.server] at before isPrimary
    constructor
    · intro found
      rcases Event.replica?_after found with ⟨subscribes, same, box⟩ | recorded
      · obtain ⟨isClient, asked⟩ := Bool.and_eq_true_iff.mp subscribes
        exact ⟨event.connection, ⟨met.member, beq_iff_eq.mp isClient, met.opened,
          Connection.subscribed_here asked⟩, same.symm, box⟩
      · obtain ⟨connection, ⟨member, isClient, isOpen, asked⟩, same⟩ := (before address box).mp recorded
        exact ⟨connection, ⟨member, isClient, isOpen, connection.subscribed_later event asked⟩, same⟩
    · rintro ⟨connection, ⟨member, isClient, isOpen, asked⟩, rfl, rfl⟩
      have opened := routed.opened connection member
      rw [← met.server] at opened
      rw [Connection.subscribed_concat, Bool.or_eq_true] at asked
      change event.after.replica? connection.name = _
      rw [event.effect.replica?]
      split
      · rename_i subscribes
        obtain ⟨kind, _⟩ := Bool.and_eq_true_iff.mp subscribes.1
        rw [eq_of_client_name distinct member met.member isClient (beq_iff_eq.mp kind) subscribes.2.2]
      · -- Whoever asked before was recorded, and is kept because its outbox is open still.
        rename_i unrecorded
        rcases asked with earlier | here
        · rw [(before _ _).mpr ⟨connection, ⟨member, isClient, isOpen, earlier⟩, rfl, rfl⟩]
          simp [opened]
        · obtain ⟨own, asked⟩ := Bool.and_eq_true_iff.mp here
          obtain rfl := routed.eq_of_outbox met.member member (beq_iff_eq.mp own)
          exact absurd ⟨by simp [Event.subscribes, isClient, asked], isPrimary, rfl⟩ unrecorded

private theorem wasClient_setPending (records : Records history network) {name : String}
    {pending : Pending}
    (distinct : (network.setPending name pending).clientNames.Nodup) :
    ∀ event ∈ history, ∀ address box, event.server.replica? address = some box →
      (ConnectionKind.client, address, box) ∈ (network.setPending name pending).connections.map
        fun connection => (connection.kind, connection.name, connection.outbox) := by
  rw [clientNames_setPending] at distinct
  unfold setPending
  rw [map_setPending fun _ => rfl]
  exact records.wasClient distinct

private theorem keep (records : Records history network) (routed : Routed history network)
    {connection : Connection} (found : network.find? connection.name = some connection)
    (opened : connection.isOpen = true) (rest : Bytes) :
    Records history (network.setPending connection.name (some rest)) where
  isPrimary := records.isPrimary
  wasPrimary := records.wasPrimary
  wasClient := records.wasClient_setPending
  replica?_iff distinct address box := by
    rw [clientNames_setPending] at distinct
    refine (records.replica?_iff distinct address box).trans ⟨?_, ?_⟩
    · rintro ⟨other, ⟨member, isClient, isOpen, asked⟩, same⟩
      by_cases here : other.outbox = connection.outbox
      · obtain rfl := routed.eq_of_outbox member (find?_spec found).1 here
        exact ⟨{ other with pending := some rest },
          ⟨(mem_updateNamed_iff routed.distinct found).mpr (.inl rfl), isClient, rfl, asked⟩, same⟩
      · exact ⟨other, ⟨(mem_updateNamed_iff routed.distinct found).mpr (.inr ⟨member, here⟩),
          isClient, isOpen, asked⟩, same⟩
    · rintro ⟨other, ⟨member, isClient, isOpen, asked⟩, same⟩
      rcases (mem_updateNamed_iff routed.distinct found).mp member with rfl | ⟨member, _⟩
      · exact ⟨connection, ⟨(find?_spec found).1, isClient, opened, asked⟩, same⟩
      · exact ⟨other, ⟨member, isClient, isOpen, asked⟩, same⟩

theorem close (records : Records history network) (routed : Routed history network)
    {connection : Connection} (found : network.find? connection.name = some connection) :
    Records history
      { network.setPending connection.name none with server := connection.finish network.server } where
  isPrimary := by
    unfold Connection.finish
    cases connection.kind with
    | client => exact (network.server.isPrimary_deregister _).trans records.isPrimary
    | primary => exact records.isPrimary
  wasPrimary := records.wasPrimary
  wasClient := records.wasClient_setPending
  replica?_iff distinct address box := by
    change (network.setPending connection.name none).clientNames.Nodup at distinct
    rw [clientNames_setPending] at distinct
    refine connection.replica?_finish_iff.trans ⟨?_, ?_⟩
    · rintro ⟨recorded, away⟩
      obtain ⟨other, ⟨member, isClient, isOpen, asked⟩, rfl, same⟩ :=
        (records.replica?_iff distinct address box).mp recorded
      have apart : other.outbox ≠ connection.outbox := by
        intro here
        obtain rfl := routed.eq_of_outbox member (find?_spec found).1 here
        exact away isClient rfl
      exact ⟨other, ⟨(mem_updateNamed_iff routed.distinct found).mpr (.inr ⟨member, apart⟩),
        isClient, isOpen, asked⟩, rfl, same⟩
    · rintro ⟨other, ⟨member, isClient, isOpen, asked⟩, rfl, same⟩
      rcases (mem_updateNamed_iff routed.distinct found).mp member with rfl | ⟨member, apart⟩
      · cases isOpen
      · refine ⟨(records.replica?_iff distinct _ _).mpr
          ⟨other, ⟨member, isClient, isOpen, asked⟩, rfl, same⟩, ?_⟩
        intro kind named
        rw [eq_of_client_name distinct member (find?_spec found).1 isClient kind named] at apart
        exact apart rfl

end Records

theorem keeps_records : Keeps fun history network =>
    Routed history network ∧ Records history network where
  connected holds name kind := ⟨holds.1.connect name kind, holds.2.connect holds.1 name kind⟩
  executed holds _ met := ⟨holds.1.executed met, holds.2.executed holds.1 met⟩
  kept holds _ found opened rest :=
    ⟨Routed.keeps.kept holds.1 _ found opened rest, holds.2.keep holds.1 found opened rest⟩
  closed holds _ found opened :=
    ⟨Routed.keeps.closed holds.1 _ found opened, holds.2.close holds.1 found⟩
  advanced holds milliseconds :=
    ⟨Routed.keeps.advanced holds.1 milliseconds,
      ⟨holds.2.isPrimary, holds.2.wasPrimary, holds.2.replica?_iff, holds.2.wasClient⟩⟩

section

variable {history : List Event} {network : Network}

private theorem Records.places_eq (records : Records history network) (routed : Routed history network)
    (distinct : network.clientNames.Nodup) {connection : Connection}
    (member : connection ∈ network.connections) (isClient : connection.kind = .client) :
    network.server.places connection.outbox =
      if connection.isOpen = true ∧ connection.subscribed history = true then 1 else 0 := by
  have recorded := records.replica?_iff distinct
  split
  · rename_i subscribes
    apply Server.places_of_sole
      ((recorded _ _).mpr ⟨connection, ⟨member, isClient, subscribes.1, subscribes.2⟩, rfl, rfl⟩)
    exact fun address found => (routed.recorded connection member address found).2.1
  · rename_i absent
    apply Server.places_of_absent
    intro address found
    obtain ⟨other, subscriber, _, same⟩ := (recorded _ _).mp found
    obtain rfl := routed.eq_of_outbox subscriber.member member same
    exact absent ⟨subscriber.isOpen, subscriber.asked⟩

theorem Records.fed_iff (records : Records history network) (distinct : network.clientNames.Nodup)
    {event : Event} (happened : event ∈ history) :
    ∃ replicas, event.server.role = .primary replicas ∧
      (∀ address ∈ replicas.keys,
        ∃ connection ∈ network.connections, connection.kind = .client ∧ connection.name = address) ∧
      ∀ connection ∈ network.connections, connection.kind = .client →
        (event.feeds connection = true ↔ connection.name ∈ replicas.keys) := by
  have wasPrimary := records.wasPrimary event happened
  have wasClient := records.wasClient distinct event happened
  cases role : event.server.role with
  | replica followed => simp [role, Role.isPrimary] at wasPrimary
  | primary replicas =>
    simp only [Server.replica?, role, Role.registry?, Option.bind_some, List.mem_map,
      Prod.mk.injEq] at wasClient
    refine ⟨replicas, rfl, ?_, ?_⟩
    · intro address member
      obtain ⟨box, found⟩ := Table.mem_keys_iff.mp member
      obtain ⟨connection, member, isClient, named, _⟩ := wasClient address box found
      exact ⟨connection, member, isClient, named⟩
    · intro connection member isClient
      simp only [Event.feeds, Server.replica?, role, Role.registry?, Option.bind_some, beq_iff_eq,
        Table.mem_keys_iff]
      constructor
      · intro found
        exact ⟨_, found⟩
      · rintro ⟨box, found⟩
        obtain ⟨other, inside, also, named, rfl⟩ := wasClient _ box found
        rwa [eq_of_client_name distinct inside member also isClient named] at found

/-- On a primary that starts without replicas, whatever peers do under client names that are
all different, the addresses recorded are the names of the clients that are connected and have
asked for a full copy, each recorded once; and each assignment is sent once to every client
recorded at that moment, ahead of the answer to the one that made it, and to no other. -/
theorem registry_holds_subscribers {server : Server} (fresh : server.role = .primary .empty)
    (steps : List Step) (distinct : ((start server).run steps).clientNames.Nodup) :
    let history := (start server).events steps
    let after := (start server).run steps
    (∃ replicas, after.server.role = .primary replicas ∧ replicas.keys.Nodup ∧
      (∀ address, address ∈ replicas.keys ↔
        ∃ connection, Subscriber history after.connections connection ∧ connection.name = address) ∧
      ∀ connection ∈ after.connections, connection.kind = .client →
        replicas.values.count connection.outbox =
          if connection.isOpen = true ∧ connection.subscribed history = true then 1 else 0) ∧
    (∀ event ∈ history, ∃ replicas, event.server.role = .primary replicas ∧
      (∀ address ∈ replicas.keys,
        ∃ connection ∈ after.connections, connection.kind = .client ∧ connection.name = address) ∧
      ∀ connection ∈ after.connections, connection.kind = .client →
        (event.feeds connection = true ↔ connection.name ∈ replicas.keys)) ∧
    ∀ connection ∈ after.connections, connection.kind = .client →
      after.queuedFor connection = (history.flatMap (·.pieces connection)).flatMap Piece.encode ∧
      (∀ event ∈ history, ∀ assignment, event.value.write? = some assignment →
        event.pieces connection =
          (if event.feeds connection then [.copy assignment] else []) ++
            if event.isOn connection then [.answer (.simple "OK")] else []) ∧
      ∀ event ∈ history, event.value.write? = none → ∀ piece ∈ event.pieces connection,
        event.isOn connection = true ∧ piece.isCopy = false := by
  intro history after
  have grounded : server.Grounded := by
    intro address box found
    simp [Server.replica?, fresh, Role.registry?] at found
  obtain ⟨routed, records⟩ : Routed history after ∧ Records history after :=
    keeps_records.run ⟨.start grounded, .start fresh⟩ steps
  refine ⟨?_, fun event happened => records.fed_iff distinct happened, ?_⟩
  · have recorded := records.replica?_iff distinct
    have isPrimary := records.isPrimary
    cases role : after.server.role with
    | replica followed => simp [role, Role.isPrimary] at isPrimary
    | primary replicas =>
      simp only [Server.replica?, role, Role.registry?, Option.bind_some] at recorded
      refine ⟨replicas, rfl, replicas.nodup, ?_, ?_⟩
      · intro address
        simp only [Table.mem_keys_iff, recorded]
        constructor
        · rintro ⟨box, connection, subscriber, named, _⟩
          exact ⟨connection, subscriber, named⟩
        · rintro ⟨connection, subscriber, named⟩
          exact ⟨_, connection, subscriber, named, rfl⟩
      · intro connection member isClient
        have places := records.places_eq routed distinct member isClient
        simpa [Server.places, role, Role.registry?] using places
  · intro connection member isClient
    exact ⟨routed.queuedFor_eq member isClient,
      fun event _ _ assigned => event.pieces_of_write connection assigned,
      fun event _ quiet _ inside => event.own_of_quiet quiet inside⟩

/-- One client asks twice for a full copy, and another one asks and is closed at an unknown
command right behind: the first one alone is recorded, and once. -/
theorem subscriber_stays_and_closed_one_goes :
    let server := Server.start (.primary .empty) "id"
    let asking := (Value.ofWords ["PSYNC"]).encode
    let steps := [.openClient "a", .openClient "b", .send "a" (asking ++ asking),
      .send "b" (asking ++ (Value.ofWords ["NONE"]).encode)]
    server.role = .primary .empty ∧ ((start server).run steps).clientNames.Nodup ∧
      ∃ replicas, ((start server).run steps).server.role = .primary replicas ∧
        (∀ address, address ∈ replicas.keys ↔ address = "a") ∧ replicas.values.count 0 = 1 := by
  intro server asking steps
  let first : Connection := ⟨"a", .client, 0, some []⟩
  let second : Connection := ⟨"b", .client, 1, none⟩
  have distinct : ((start server).run steps).clientNames.Nodup := by decide +kernel
  have connections : ((start server).run steps).connections = [second, first] := by decide +kernel
  have asked : first.subscribed ((start server).events steps) = true := by decide +kernel
  obtain ⟨⟨replicas, role, _, addresses, once⟩, _⟩ := registry_holds_subscribers rfl steps distinct
  rw [connections] at addresses once
  refine ⟨rfl, distinct, replicas, role, ?_, ?_⟩
  · intro address
    rw [addresses]
    constructor
    · rintro ⟨connection, ⟨member, _, isOpen, _⟩, rfl⟩
      rcases List.mem_pair.mp member with rfl | rfl
      · cases isOpen
      · rfl
    · rintro rfl
      exact ⟨first, ⟨by simp, rfl, rfl, asked⟩, rfl⟩
  · rw [once first (by simp) rfl, if_pos ⟨rfl, asked⟩]

end

end Network

end RespKeyspace
