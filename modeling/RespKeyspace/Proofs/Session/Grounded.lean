import RespKeyspace.Proofs.Feeding.Effects
import RespKeyspace.Proofs.Session.Sequential

/-! Outboxes are made before anything is queued in them. Whatever peers do, replicas and
connections are recorded with outboxes that exist. -/

namespace RespKeyspace

namespace Server

/-- Every outbox that replicas are recorded with has been made. -/
def Grounded (server : Server) : Prop :=
  ∀ address box, server.replica? address = some box → box < server.outboxes.next

variable {server : Server}

theorem Grounded.push (grounded : server.Grounded) (box : OutboxId) (frame : Frame) :
    (server.push box frame).Grounded := by
  intro address other found
  have inside : other < server.outboxes.next := grounded address other found
  simpa [Server.push] using inside

theorem Grounded.create (grounded : server.Grounded) :
    Grounded { server with outboxes := server.outboxes.create } := by
  intro address box found
  have inside : box < server.outboxes.next := grounded address box found
  rw [Outboxes.next_create]
  exact Nat.lt_succ_of_lt inside

theorem Grounded.register (grounded : server.Grounded) (address : String) {box : OutboxId}
    (made : box < server.outboxes.next) : (server.register address box).Grounded := by
  intro other found same
  rw [replica?_register] at same
  split at same
  · cases same
    exact made
  · exact grounded other found same

theorem Grounded.deregister (grounded : server.Grounded) (address : String) :
    (server.deregister address).Grounded := by
  intro other box found
  rw [replica?_deregister] at found
  split at found
  · cases found
  · exact grounded other box found

theorem Grounded.assign (grounded : server.Grounded) (now : Nat) (assignment : Assignment) :
    (server.assign now assignment).Grounded := by
  intro address box found
  rw [replica?_assign] at found
  rw [next_assign]
  exact grounded address box (Option.filter_eq_some_iff.mp found).1

/-- Outboxes up to `next` are made, and replicas are recorded with these alone. -/
def Within (next : OutboxId) (server : Server) : Prop :=
  server.Grounded ∧ server.outboxes.next = next

variable {next : OutboxId}

theorem Within.perform (within : server.Within next) (now : Nat) (command : Command) :
    (server.perform now command).2.Within next := by
  obtain ⟨grounded, same⟩ := within
  by_cases isSet : ∃ assignment, command = .set assignment
  · obtain ⟨assignment, rfl⟩ := isSet
    exact ⟨grounded.assign now assignment, (server.next_assign now assignment).trans same⟩
  · obtain ⟨keys, done⟩ := server.perform_of_not_set now fun assignment found =>
      isSet ⟨assignment, found⟩
    rw [done]
    exact ⟨grounded, same⟩

theorem Within.serve (within : server.Within next) (now : Nat) (value : Value) :
    (server.serve now value).2.Within next := by
  rw [serve_eq]
  cases value.command with
  | error refusal => exact within
  | ok command => exact within.perform now command

theorem Within.push (within : server.Within next) (box : OutboxId) (frame : Frame) :
    (server.push box frame).Within next :=
  ⟨within.1.push box frame, (server.outboxes.next_push box frame).trans within.2⟩

theorem Within.deliver (within : server.Within next) {client : Client} (made : client.outbox < next)
    (outcome : Outcome) : (server.deliver client outcome).Within next := by
  cases outcome with
  | silent => exact within
  | reply value => exact within.push _ _
  | sync announcement =>
    have queued := (within.push client.outbox (.value announcement)).push client.outbox
      (.snapshot Snapshot.empty)
    exact ⟨queued.1.register _ (queued.2 ▸ made), queued.2⟩

theorem Within.serveOne (within : server.Within next) {client : Client} (made : client.outbox < next)
    (now : Nat) (value : Value) : (serveOne now client value server).2.Within next := by
  have after := within.serve now value
  rcases serveOne_cases now client value server with ⟨outcome, done⟩ | ⟨refusal, done⟩ | done
  · rw [done]
    exact after.deliver made outcome
  · rw [done]
    exact after.push client.outbox (.value refusal.reply)
  · rw [done]
    exact after

theorem Within.obey (within : server.Within next) (now : Nat) (command : Command) :
    (server.obey now command).2.Within next := by
  unfold Server.obey
  split
  · exact within
  · exact within.perform now command

theorem Within.follow (within : server.Within next) (now : Nat) (value : Value) :
    (server.follow now value).2.Within next := by
  unfold Server.follow
  split
  · exact within
  split
  · exact within
  · rename_i command _
    exact within.obey now command

theorem Within.followOne (within : server.Within next) (outbox : OutboxId) (now : Nat)
    (value : Value) : (followOne now outbox value server).2.Within next := by
  have after := within.follow now value
  unfold Server.followOne
  split
  · rename_i reply later done
    rw [done] at after
    exact after.push outbox (.value reply)
  · rename_i done
    rw [done] at after
    exact after
  · rename_i done
    rw [done] at after
    exact after

theorem runUntil_keeps {execute : Value → Server → Bool × Server} {property : Server → Prop}
    (each : ∀ value server, property server → property (execute value server).2)
    (values : List Value) (holds : property server) : property (runUntil execute values server).2 := by
  induction values generalizing server with
  | nil => exact holds
  | cons value rest ih =>
    have first := each value server holds
    rw [runUntil]
    split
    · rename_i after done
      rw [done] at first
      exact ih first
    · rename_i after done
      rw [done] at first
      exact first

end Server

namespace Connection

variable {connection : Connection} {server : Server} {next : OutboxId}

private theorem within_finish (connection : Connection) (within : server.Within next) :
    (connection.finish server).Within next := by
  unfold finish
  cases connection.kind with
  | client => exact ⟨within.1.deregister _, within.2⟩
  | primary => exact within

private theorem within_receive (within : server.Within next) (made : connection.outbox < next)
    (now : Nat)
    (bytes : Bytes) : (connection.receive now bytes server).2.Within next := by
  have each : ∀ value server, Server.Within next server →
      Server.Within next (connection.execute now value server).2 := by
    intro value server within
    unfold execute
    cases connection.kind with
    | client => exact within.serveOne made now value
    | primary => exact within.followOne connection.outbox now value
  have ran := Server.runUntil_keeps each (Value.decoded bytes).values within
  rw [receive_eq]
  dsimp only
  split
  · exact connection.within_finish ran
  · exact ran

end Connection

namespace Network

/-- Replicas and connections are recorded with outboxes that exist. -/
structure Grounded (network : Network) : Prop where
  server : network.server.Grounded
  connections : ∀ connection ∈ network.connections, connection.outbox < network.server.outboxes.next

theorem grounded_start {server : Server} (grounded : server.Grounded) : (start server).Grounded :=
  ⟨grounded, by simp [start]⟩

variable {network : Network}

theorem Grounded.openConnection (grounded : network.Grounded) (name : String)
    (kind : ConnectionKind) (buffer : Bytes) : (network.openConnection name kind buffer).Grounded := by
  have within := Connection.within_receive
    (⟨grounded.server.create, network.server.outboxes.next_create⟩ : Server.Within _ _)
    (Nat.lt_succ_self _ : (⟨name, kind, network.server.outboxes.next, none⟩ : Connection).outbox < _)
    network.now buffer
  refine ⟨within.1, ?_⟩
  intro connection member
  unfold Network.openConnection at member ⊢
  dsimp only at member ⊢
  rw [within.2]
  rcases List.mem_cons.mp member with rfl | earlier
  · exact Nat.lt_succ_self _
  · exact Nat.lt_succ_of_lt (grounded.connections connection earlier)

theorem Grounded.send (grounded : network.Grounded) (name : String) (content : Bytes) :
    (network.send name content).Grounded := by
  unfold Network.send
  split
  · exact grounded
  · rename_i connection found
    split
    · exact grounded
    · rename_i held _
      have made := grounded.connections connection (find?_spec found).1
      have within := Connection.within_receive (⟨grounded.server, rfl⟩ : Server.Within _ _) made
        network.now (held ++ content)
      refine ⟨within.1, ?_⟩
      dsimp only
      rw [within.2]
      exact forall_updateNamed (fun _ made => made) grounded.connections

theorem Grounded.finish (grounded : network.Grounded) (name : String) :
    (network.finish name).Grounded := by
  unfold Network.finish
  split
  · exact grounded
  · rename_i connection found
    split
    · have within := connection.within_finish
        (⟨grounded.server, rfl⟩ : Server.Within _ _)
      refine ⟨within.1, ?_⟩
      dsimp only
      rw [within.2]
      exact forall_updateNamed (fun _ made => made) grounded.connections
    · exact grounded

theorem Grounded.step (grounded : network.Grounded) (step : Step) : (network.step step).Grounded := by
  cases step with
  | openClient name => exact grounded.openConnection name .client []
  | openPrimary name buffer => exact grounded.openConnection name .primary buffer
  | send name content => exact grounded.send name content
  | finish name => exact grounded.finish name
  | advance milliseconds => exact ⟨grounded.server, grounded.connections⟩

def run (network : Network) (steps : List Step) : Network := steps.foldl Network.step network

end Network

end RespKeyspace
