import RespKeyspace.Proofs.Link.Following
import RespKeyspace.Proofs.Session.Grounded

/-! A primary from the moment at which a replica is recorded: whatever its other clients
do, the replica is sent what they assign, in order, and nothing else. -/

namespace RespKeyspace

namespace Value

theorem parts_of_write? {value : Value} {written : Assignment} (found : value.write? = some written) :
    ∃ keyword options, value = ofParts (keyword :: written.key :: written.content :: options) := by
  obtain ⟨⟨keyword, arguments⟩, rfl, accepted⟩ := command_eq_ok_iff.mp (write?_eq_some_iff.mp found)
  rcases Command.assignment_eq_ok_iff.mp (Command.named_set_iff.mp accepted).2 with
    ⟨rfl, _⟩ | ⟨option, digits, _, rfl, _⟩
  · exact ⟨keyword, [], rfl⟩
  · exact ⟨keyword, [option, digits], rfl⟩

theorem wellFormed_toValue_of_write? {value : Value} {written : Assignment}
    (formed : value.WellFormed maxDepth) (found : value.write? = some written) :
    written.toValue.WellFormed maxDepth := by
  obtain ⟨keyword, options, rfl⟩ := parts_of_write? found
  have short := (wellFormed_ofParts_iff.mp formed).2
  exact Assignment.wellFormed_toValue (short _ (by simp)) (short _ (by simp))

private theorem write?_of_isFatal {value : Value} (fatal : value.isFatal = true) :
    value.write? = none := by
  unfold isFatal at fatal
  unfold write?
  cases asked : value.command with
  | error refusal => rfl
  | ok command => simp [asked] at fatal

/-- What values assign that arrive one after the other on a client's connection. -/
def writes (values : List Value) : List Assignment :=
  (values.takeWhile fun value => !value.isFatal).filterMap write?

@[simp] theorem writes_nil : writes [] = [] := rfl

theorem writes_cons (value : Value) (rest : List Value) :
    writes (value :: rest) = if value.isFatal then [] else value.write?.toList ++ writes rest := by
  unfold writes
  cases fatal : value.isFatal with
  | true => simp [fatal]
  | false => cases found : value.write? <;> simp [fatal, found]

private theorem exists_of_mem_writes {values : List Value} {written : Assignment}
    (member : written ∈ writes values) : ∃ value ∈ values, value.write? = some written := by
  obtain ⟨value, inside, found⟩ := List.mem_filterMap.mp member
  exact ⟨value, List.takeWhile_subset _ inside, found⟩

end Value

namespace Keyspace

/-- Keys that took assignments: whatever a key holds is what was last assigned to it, and
what has no lifetime is there. -/
def Reflects (keys : Keyspace) (writes : List Assignment) : Prop :=
  ∀ key assignment, Assignment.latest? writes key = some assignment →
    (∀ entry, keys.find? key = some entry → entry.content = assignment.content) ∧
      (assignment.lifetime = none → keys.find? key = some ⟨assignment.content, none⟩)

variable {keys : Keyspace} {writes : List Assignment}

theorem reflects_nil (keys : Keyspace) : keys.Reflects [] := by
  intro key assignment found
  cases found

theorem Reflects.get (reflects : keys.Reflects writes) (now : Nat) (key : Bytes) :
    (keys.get now key).2.Reflects writes := by
  intro other assignment latest
  obtain ⟨content, stays⟩ := reflects other assignment latest
  rw [find?_get]
  split
  · rename_i same
    subst same
    refine ⟨?_, ?_⟩
    · intro entry found
      exact content entry (Option.filter_eq_some_iff.mp found).1
    · intro permanent
      rw [stays permanent]
      rfl
  · exact ⟨content, stays⟩

theorem Reflects.set (reflects : keys.Reflects writes) (now : Nat) (written : Assignment) :
    (keys.set now written.key written.content written.lifetime).Reflects (writes ++ [written]) := by
  intro other assignment latest
  rw [Assignment.latest?_append, Assignment.latest?_singleton] at latest
  rw [find?_set]
  by_cases same : written.key = other
  · simp only [same, if_true, Option.some_or, Option.some.injEq] at latest ⊢
    subst latest
    refine ⟨?_, ?_⟩
    · rintro entry rfl
      rfl
    · intro permanent
      rw [permanent]
      rfl
  · simp only [same, if_false, Option.none_or] at latest
    rw [if_neg (Ne.symm same)]
    exact reflects other assignment latest

end Keyspace

namespace Server

private theorem keys_serve_of_quiet (server : Server) (now : Nat) {value : Value}
    (quiet : value.write? = none) :
    (server.serve now value).2.keys = server.keys ∨
      ∃ key, (server.serve now value).2.keys = (server.keys.get now key).2 := by
  rw [serve_eq]
  cases asked : value.command with
  | error refusal => exact .inl rfl
  | ok command =>
    cases command with
    | get key => exact .inr ⟨key, rfl⟩
    | set assignment => simp [Value.write?, asked] at quiet
    | _ => exact .inl rfl

theorem serveOne_fst (server : Server) (now : Nat) (client : Client) (value : Value) :
    (serveOne now client value server).1 = !value.isFatal := by
  unfold serveOne Value.isFatal
  rw [serve_eq]
  cases value.command with
  | ok command => rfl
  | error refusal => cases fatal : refusal.isFatal <;> simp [fatal]

end Server

/-- A replica that a primary feeds, from the moment at which it was recorded: its address
and outbox, what it had been sent by then, and the offset at that moment. -/
structure Subscription where
  address : String
  outbox : OutboxId
  sent : List Frame
  offset : UInt64

namespace Subscription

def frame (assignment : Assignment) : Frame := .value assignment.toValue

/-- A primary that has fed a replica some assignments, and has taken these assignments
alone. -/
structure Fed (subscription : Subscription) (writes : List Assignment) (server : Server) : Prop where
  isPrimary : server.role.isPrimary = true
  opened : server.outboxes.isOpen subscription.outbox = true
  replica : server.replica? subscription.address = some subscription.outbox
  sole : ∀ address, server.replica? address = some subscription.outbox →
    address = subscription.address
  frames : server.outboxes.frames subscription.outbox = subscription.sent ++ writes.map frame
  offset : server.offset = subscription.offset +
    UInt64.ofNat ((writes.map Assignment.toValue).flatMap Value.encode).length
  reflects : server.keys.Reflects writes

/-- A client that is not the replica. -/
structure Spares (subscription : Subscription) (client : Server.Client) : Prop where
  address : client.address ≠ subscription.address
  outbox : client.outbox ≠ subscription.outbox

namespace Fed

variable {subscription : Subscription} {writes : List Assignment} {server : Server}

private theorem create (fed : subscription.Fed writes server) :
    subscription.Fed writes { server with outboxes := server.outboxes.create } where
  isPrimary := fed.isPrimary
  opened := by simp [Outboxes.isOpen_create, fed.opened]
  replica := fed.replica
  sole := fed.sole
  frames := (server.outboxes.frames_create _).trans fed.frames
  offset := fed.offset
  reflects := fed.reflects

theorem push (fed : subscription.Fed writes server) {box : OutboxId} (frame : Frame)
    (differ : box ≠ subscription.outbox) : subscription.Fed writes (server.push box frame) where
  isPrimary := fed.isPrimary
  opened := (server.outboxes.isOpen_push _ _ frame).trans fed.opened
  replica := fed.replica
  sole := fed.sole
  frames := (server.outboxes.frames_push_of_ne _ _ frame differ).trans fed.frames
  offset := fed.offset
  reflects := fed.reflects

theorem register (fed : subscription.Fed writes server) {client : Server.Client}
    (spares : subscription.Spares client) :
    subscription.Fed writes (server.register client.address client.outbox) where
  isPrimary := (server.isPrimary_register _ _).trans fed.isPrimary
  opened := fed.opened
  replica := by
    rw [Server.replica?_register, if_neg fun both => spares.address both.2.symm]
    exact fed.replica
  sole address found := by
    rw [Server.replica?_register] at found
    split at found
    · exact (spares.outbox (Option.some.inj found)).elim
    · exact fed.sole address found
  frames := fed.frames
  offset := fed.offset
  reflects := fed.reflects

private theorem deregister (fed : subscription.Fed writes server) {address : String}
    (differ : address ≠ subscription.address) : subscription.Fed writes (server.deregister address) where
  isPrimary := (server.isPrimary_deregister _).trans fed.isPrimary
  opened := fed.opened
  replica := by
    rw [Server.replica?_deregister, if_neg (Ne.symm differ)]
    exact fed.replica
  sole other found := by
    rw [Server.replica?_deregister] at found
    split at found
    · cases found
    · exact fed.sole other found
  frames := fed.frames
  offset := fed.offset
  reflects := fed.reflects

theorem assign (fed : subscription.Fed writes server) (now : Nat) (written : Assignment) :
    subscription.Fed (writes ++ [written]) (server.assign now written) where
  isPrimary := (server.isPrimary_assign now written).trans fed.isPrimary
  opened := (server.isOpen_assign now written _).trans fed.opened
  replica := by
    rw [Server.replica?_assign, fed.replica]
    simp [fed.opened]
  sole address found := by
    rw [Server.replica?_assign] at found
    exact fed.sole address (Option.filter_eq_some_iff.mp found).1
  frames := by
    rw [Server.frames_assign, if_pos fed.opened, Server.places_of_sole fed.replica fed.sole,
      fed.frames]
    simp [frame]
  offset := by
    have live : server.HasLiveReplica :=
      ⟨subscription.address, subscription.outbox, fed.replica, fed.opened⟩
    rw [Server.offset_assign_of_live _ _ _ live, fed.offset]
    simp only [Server.frameLength, List.map_append, List.map_cons, List.map_nil,
      List.flatMap_append, List.flatMap_singleton, List.length_append, UInt64.ofNat_add,
      UInt64.add_assoc]
  reflects := by
    rw [Server.keys_assign]
    exact fed.reflects.set now written

theorem serve (fed : subscription.Fed writes server) (now : Nat) (value : Value) :
    subscription.Fed (writes ++ value.write?.toList) (server.serve now value).2 := by
  rcases server.serve_cases now value with ⟨written, found, done⟩ | ⟨quiet, keys, done⟩
  · rw [done, found]
    exact fed.assign now written
  · have held := server.keys_serve_of_quiet now quiet
    rw [done] at held
    rw [done, quiet, Option.toList_none, List.append_nil]
    refine { fed with reflects := ?_ }
    rcases held with same | ⟨key, read⟩
    · exact same ▸ fed.reflects
    · exact read ▸ fed.reflects.get now key

private theorem deliver (fed : subscription.Fed writes server) {client : Server.Client}
    (spares : subscription.Spares client) (outcome : Outcome) :
    subscription.Fed writes (server.deliver client outcome) := by
  cases outcome with
  | silent => exact fed
  | reply value => exact fed.push _ spares.outbox
  | sync announcement =>
    exact ((fed.push (.value announcement) spares.outbox).push (.snapshot Snapshot.empty)
      spares.outbox).register spares

private theorem serveOne (fed : subscription.Fed writes server) {client : Server.Client}
    (spares : subscription.Spares client) (now : Nat) (value : Value) :
    subscription.Fed (writes ++ value.write?.toList) (Server.serveOne now client value server).2 := by
  have after := fed.serve now value
  rcases Server.serveOne_cases now client value server with ⟨outcome, done⟩ | ⟨refusal, done⟩ | done
  · rw [done]
    exact after.deliver spares outcome
  · rw [done]
    exact after.push (.value refusal.reply) spares.outbox
  · rw [done]
    exact after

theorem run (fed : subscription.Fed writes server) {client : Server.Client}
    (spares : subscription.Spares client) (now : Nat) (values : List Value) :
    subscription.Fed (writes ++ Value.writes values)
      (Server.runUntil (Server.serveOne now client) values server).2 := by
  induction values generalizing server writes with
  | nil => simpa [Server.runUntil] using fed
  | cons value rest ih =>
    have first := fed.serveOne spares now value
    have goesOn := server.serveOne_fst now client value
    rw [Server.runUntil, Value.writes_cons]
    cases done : Server.serveOne now client value server with
    | mk more later =>
    rw [done] at first goesOn
    dsimp only at first goesOn ⊢
    subst goesOn
    cases fatal : value.isFatal with
    | true => simpa [Value.write?_of_isFatal fatal] using first
    | false => simpa [List.append_assoc] using ih first

end Fed

end Subscription

namespace Network

/-- A step that neither concerns the connection called `name` nor opens a link. -/
def Step.Spares (name : String) : Step → Prop
  | .openClient other | .send other _ | .finish other => other ≠ name
  | .openPrimary _ _ => False
  | .advance _ => True

/-- What a step assigns: what the values assign that are complete once its bytes are there. -/
def stepWrites (network : Network) : Step → List Assignment
  | .send name content =>
    match (network.find? name).bind Connection.pending with
    | some held => Value.writes (Value.decoded (held ++ content)).values
    | none => []
  | _ => []

def writes (network : Network) : List Step → List Assignment
  | [] => []
  | step :: rest => network.stepWrites step ++ (network.step step).writes rest

/-- A network in which a replica is connected and fed: its own connection holds nothing,
and all others are those of other clients. -/
structure Feeds (subscription : Subscription) (writes : List Assignment) (network : Network) :
    Prop where
  grounded : network.Grounded
  fed : subscription.Fed writes network.server
  own : network.find? subscription.address =
    some ⟨subscription.address, .client, subscription.outbox, some []⟩
  others : ∀ connection ∈ network.connections, connection.name ≠ subscription.address →
    connection.kind = .client ∧ connection.outbox ≠ subscription.outbox
  formed : ∀ written ∈ writes, written.toValue.WellFormed Value.maxDepth

end Network

namespace Connection

variable {subscription : Subscription} {writes : List Assignment} {server : Server}

private theorem fed_receive (connection : Connection) (isClient : connection.kind = .client)
    (spares : subscription.Spares connection.client) (fed : subscription.Fed writes server)
    (now : Nat) (bytes : Bytes) :
    subscription.Fed (writes ++ Value.writes (Value.decoded bytes).values)
      (connection.receive now bytes server).2 := by
  have ran := fed.run spares now (Value.decoded bytes).values
  have serves : connection.execute now = Server.serveOne now connection.client := by
    simp only [execute, isClient]
  rw [receive_eq, serves]
  dsimp only
  split
  · simp only [finish, isClient]
    exact ran.deregister spares.address
  · exact ran

end Connection

namespace Network

namespace Feeds

variable {subscription : Subscription} {writes : List Assignment} {network : Network}

theorem openClient (feeds : network.Feeds subscription writes) {name : String}
    (differ : name ≠ subscription.address) :
    (network.step (.openClient name)).Feeds subscription writes := by
  have made : subscription.outbox < network.server.outboxes.next :=
    feeds.grounded.server _ _ feeds.fed.replica
  let opened : Connection := ⟨name, .client, network.server.outboxes.next, none⟩
  have spares : subscription.Spares opened.client := ⟨differ, Nat.ne_of_gt made⟩
  have fed := opened.fed_receive rfl spares feeds.fed.create network.now []
  rw [Value.decoded_nil, Value.writes_nil, List.append_nil] at fed
  refine ⟨feeds.grounded.step _, fed, ?_, ?_, feeds.formed⟩
  · have own := feeds.own
    simpa [Network.step, openConnection, find?, differ] using own
  · intro connection member away
    rcases List.mem_cons.mp member with rfl | earlier
    · exact ⟨rfl, spares.outbox⟩
    · exact feeds.others connection earlier away

theorem send (feeds : network.Feeds subscription writes) {name : String} (content : Bytes)
    (differ : name ≠ subscription.address) :
    (network.step (.send name content)).Feeds subscription
      (writes ++ network.stepWrites (.send name content)) := by
  have grounded := feeds.grounded.step (.send name content)
  unfold stepWrites
  unfold Network.step Network.send at grounded ⊢
  cases found : network.find? name with
  | none => simpa [found] using feeds
  | some connection =>
    obtain ⟨member, same⟩ := find?_spec found
    have away : connection.name ≠ subscription.address := same.symm ▸ differ
    obtain ⟨isClient, outbox⟩ := feeds.others connection member away
    cases pending : connection.pending with
    | none => simpa [found, pending] using feeds
    | some held =>
      have fed := connection.fed_receive isClient ⟨away, outbox⟩ feeds.fed network.now (held ++ content)
      simp only [found, pending, Option.bind_some] at grounded ⊢
      refine ⟨grounded, fed, ?_, ?_, ?_⟩
      · exact (find?_updateNamed_of_ne differ _ network.connections).trans feeds.own
      · exact forall_updateNamed (fun _ spared => spared) feeds.others
      · intro written inside
        rcases List.mem_append.mp inside with earlier | new
        · exact feeds.formed written earlier
        · obtain ⟨value, read, assigns⟩ := Value.exists_of_mem_writes new
          exact Value.wellFormed_toValue_of_write? (Value.decoded_wellFormed _ value read) assigns

theorem finish (feeds : network.Feeds subscription writes) {name : String}
    (differ : name ≠ subscription.address) :
    (network.step (.finish name)).Feeds subscription writes := by
  have grounded := feeds.grounded.step (.finish name)
  unfold Network.step Network.finish at grounded ⊢
  cases found : network.find? name with
  | none => simpa [found] using feeds
  | some connection =>
    obtain ⟨member, same⟩ := find?_spec found
    have away : connection.name ≠ subscription.address := same.symm ▸ differ
    obtain ⟨isClient, outbox⟩ := feeds.others connection member away
    cases opened : connection.isOpen with
    | false => simpa [found, opened] using feeds
    | true =>
      simp only [found, opened, if_true, Connection.finish, isClient] at grounded ⊢
      refine ⟨grounded, feeds.fed.deregister away, ?_, ?_, feeds.formed⟩
      · exact (find?_updateNamed_of_ne differ _ network.connections).trans feeds.own
      · exact forall_updateNamed (fun _ spared => spared) feeds.others

theorem step (feeds : network.Feeds subscription writes) {step : Step}
    (spares : step.Spares subscription.address) :
    (network.step step).Feeds subscription (writes ++ network.stepWrites step) := by
  cases step with
  | openClient name => simpa [stepWrites] using feeds.openClient spares
  | openPrimary name buffer => exact spares.elim
  | send name content => exact feeds.send content spares
  | finish name => simpa [stepWrites] using feeds.finish spares
  | advance milliseconds =>
    simp only [stepWrites, List.append_nil]
    exact ⟨feeds.grounded.step _, feeds.fed, feeds.own, feeds.others, feeds.formed⟩

/-- A run of other clients: the replica is fed what the run assigns. -/
theorem run (feeds : network.Feeds subscription writes) {steps : List Step}
    (spare : ∀ step ∈ steps, step.Spares subscription.address) :
    (network.run steps).Feeds subscription (writes ++ network.writes steps) := by
  induction steps generalizing network writes with
  | nil => simpa [Network.run, Network.writes] using feeds
  | cons first rest ih =>
    have after := feeds.step (spare first (by simp))
    have later := ih after fun step member => spare step (by simp [member])
    simpa [Network.run, Network.writes] using later

end Feeds

end Network

end RespKeyspace
