import RespKeyspace.Proofs.Link.Upstream
import RespKeyspace.Proofs.Session.Framing

/-! The moves of clients that are served at the same time. A request is executed in moves, the moves
of each client stay in their order, and each move sends what it sends whatever comes in between. -/

namespace RespKeyspace

/-- What a task that serves a client does with nobody in between: to queue the announcement of a
full copy, to queue the snapshot, to record the client as a replica, to assign and to feed what is
assigned to the replicas, and to confirm what was assigned. -/
inductive Move where
  | announce (client : Server.Client)
  | copy (client : Server.Client)
  | record (client : Server.Client)
  | write (client : Server.Client) (now : Nat) (assignment : Assignment)
  | confirm (client : Server.Client)
deriving DecidableEq

/-- What a client asks for: a full copy, or an assignment. -/
inductive Job where
  | sync
  | assign (now : Nat) (assignment : Assignment)
deriving DecidableEq

namespace Move

def client : Move → Server.Client
  | announce client | copy client | record client | write client _ _ | confirm client => client

def apply (server : Server) : Move → Server
  | announce client => server.push client.outbox (.value server.resyncAnnouncement)
  | copy client => server.push client.outbox (.snapshot Snapshot.empty)
  | record client => server.register client.address client.outbox
  | write _ now assignment => server.assign now assignment
  | confirm client => server.push client.outbox (.value (.simple "OK"))

def run (server : Server) (moves : List Move) : Server := moves.foldl apply server

def write? : Move → Option Assignment
  | write _ _ assignment => some assignment
  | _ => none

end Move

namespace Job

/-- The moves of a task, in order. -/
def moves (client : Server.Client) : Job → List Move
  | sync => [.announce client, .copy client, .record client]
  | assign now assignment => [.write client now assignment, .confirm client]

/-- The job that a value asks for at a time, if it is one of the two. -/
def ofValue? (now : Nat) (value : Value) : Option Job :=
  match value.command with
  | .ok .psync => some sync
  | .ok (.set assignment) => some (assign now assignment)
  | _ => none

/-- With nobody in between, the moves of a job are what executing the request comes to. -/
theorem serveOne_eq_run {now : Nat} {value : Value} {job : Job} (asked : ofValue? now value = some job)
    (client : Server.Client) (server : Server) :
    Server.serveOne now client value server = (true, Move.run server (job.moves client)) := by
  unfold ofValue? at asked
  split at asked
  · rename_i accepted
    cases asked
    rw [Server.serveOne, Server.serve_of_ok server now accepted]
    rfl
  · rename_i assignment accepted
    cases asked
    rw [Server.serveOne, Server.serve_of_ok server now accepted]
    rfl
  · cases asked

end Job

namespace Move

/-- Moves of many tasks: those of each client are the moves of its jobs, one job after the other,
of which the last one may be under way. -/
def Interleaves (moves : List Move) : Prop :=
  ∀ client, ∃ jobs : List Job, moves.filter (·.client = client) <+: jobs.flatMap (·.moves client)

variable {client : Server.Client} {moves before after : List Move}

private theorem copy_behind_announce {jobs : List Job} {front back : List Move}
    (whole : jobs.flatMap (·.moves client) = front ++ .announce client :: back) :
    ∃ rest, back = .copy client :: rest := by
  induction jobs generalizing front with
  | nil => simp at whole
  | cons job rest ih =>
    rw [List.flatMap_cons] at whole
    cases job with
    | sync =>
      rcases front with _ | ⟨_, _ | ⟨_, _ | ⟨_, front⟩⟩⟩
      · exact ⟨_, (List.cons.inj whole).2.symm⟩
      · simp [Job.moves] at whole
      · simp [Job.moves] at whole
      · exact ih (List.cons.inj (List.cons.inj (List.cons.inj whole).2).2).2
    | assign now assignment =>
      rcases front with _ | ⟨_, _ | ⟨_, front⟩⟩
      · simp [Job.moves] at whole
      · simp [Job.moves] at whole
      · exact ih (List.cons.inj (List.cons.inj whole).2).2

/-- Behind the announcement to a client, only others move until the snapshot is queued. -/
theorem Interleaves.behind_announce (interleaves : Interleaves moves)
    (here : moves = before ++ .announce client :: after) :
    let between := after.takeWhile (·.client ≠ client)
    after = between ∨ ∃ rest, after = between ++ .copy client :: rest := by
  intro between
  obtain ⟨jobs, own, whole⟩ := interleaves client
  have others : between.filter (·.client = client) = [] := by
    apply List.filter_eq_nil_iff.mpr
    intro move member
    simpa using List.all_eq_true.mp List.all_takeWhile _ member
  have split : between ++ after.dropWhile (·.client ≠ client) = after := List.takeWhile_append_dropWhile
  cases stopped : after.dropWhile (·.client ≠ client) with
  | nil => exact .inl (by rw [← split, stopped, List.append_nil])
  | cons first rest =>
    have same : first.client = client := by
      have head := List.head?_dropWhile_not (·.client ≠ client) after
      rw [stopped] at head
      simpa using head
    have behind : after.filter (·.client = client) = first :: rest.filter (·.client = client) := by
      rw [← split, stopped, List.filter_append, others]
      simp [same]
    rw [here, List.filter_append, List.filter_cons_of_pos (by simp [Move.client]), behind,
      List.append_assoc] at whole
    obtain ⟨_, found⟩ := copy_behind_announce whole.symm
    obtain rfl := (List.cons.inj found).1
    exact .inr ⟨rest, by rw [← split, stopped]⟩

end Move

namespace Server

def records (server : Server) (client : Client) : Bool :=
  server.replica? client.address == some client.outbox

/-- A primary with clients that have an address and a queue of their own each, and are recorded
under no other address. -/
structure Hosts (server : Server) (clients : List Client) : Prop where
  isPrimary : server.role.isPrimary = true
  opened : ∀ client ∈ clients, server.outboxes.isOpen client.outbox = true
  outboxes : (clients.map Client.outbox).Nodup
  addresses : (clients.map Client.address).Nodup
  sole : ∀ client ∈ clients, ∀ address,
    server.replica? address = some client.outbox → address = client.address

namespace Hosts

variable {server : Server} {clients : List Client} {client other : Client}

private theorem eq_of_outbox (hosts : server.Hosts clients) (one : other ∈ clients)
    (two : client ∈ clients)
    (same : other.outbox = client.outbox) : other = client :=
  List.inj_on_of_nodup_map hosts.outboxes one two same

private theorem places_eq (hosts : server.Hosts clients) (member : client ∈ clients) :
    server.places client.outbox = if server.records client then 1 else 0 := by
  cases recorded : server.records client with
  | true => exact places_of_sole (beq_iff_eq.mp recorded) (hosts.sole client member)
  | false =>
    apply places_of_absent
    intro address found
    obtain rfl := hosts.sole client member address found
    exact absurd found (beq_eq_false_iff_ne.mp recorded)

theorem frames_push (hosts : server.Hosts clients) (member : client ∈ clients) (own : other ∈ clients)
    (frame : Frame) :
    (server.push other.outbox frame).outboxes.frames client.outbox =
      server.outboxes.frames client.outbox ++ if other = client then [frame] else [] := by
  have same : other.outbox = client.outbox ↔ other = client :=
    ⟨hosts.eq_of_outbox own member, congrArg Client.outbox⟩
  simp [push, Outboxes.frames_push, hosts.opened client member, same]

theorem push (hosts : server.Hosts clients) (box : OutboxId) (frame : Frame) :
    (server.push box frame).Hosts clients where
  isPrimary := hosts.isPrimary
  opened client member := (server.outboxes.isOpen_push box _ frame).trans (hosts.opened client member)
  outboxes := hosts.outboxes
  addresses := hosts.addresses
  sole := hosts.sole

theorem register (hosts : server.Hosts clients) (own : other ∈ clients) :
    (server.register other.address other.outbox).Hosts clients where
  isPrimary := (server.isPrimary_register _ _).trans hosts.isPrimary
  opened := hosts.opened
  outboxes := hosts.outboxes
  addresses := hosts.addresses
  sole client member address found := by
    rw [replica?_register] at found
    split at found
    · rename_i here
      rw [hosts.eq_of_outbox own member (Option.some.inj found)] at here
      exact here.2
    · exact hosts.sole client member address found

theorem records_register (hosts : server.Hosts clients) (member : client ∈ clients)
    (own : other ∈ clients) :
    (server.register other.address other.outbox).records client =
      (decide (other = client) || server.records client) := by
  unfold records
  rw [replica?_register, hosts.isPrimary]
  by_cases same : other = client
  · simp [same]
  · have differ : client.address ≠ other.address := fun equal =>
      same (List.inj_on_of_nodup_map hosts.addresses own member equal.symm)
    simp [same, differ]

theorem assign (hosts : server.Hosts clients) (now : Nat) (assignment : Assignment) :
    (server.assign now assignment).Hosts clients where
  isPrimary := (server.isPrimary_assign now assignment).trans hosts.isPrimary
  opened client member := (server.isOpen_assign now assignment _).trans (hosts.opened client member)
  outboxes := hosts.outboxes
  addresses := hosts.addresses
  sole client member address found := by
    rw [replica?_assign] at found
    exact hosts.sole client member address (Option.filter_eq_some_iff.mp found).1

theorem records_assign (hosts : server.Hosts clients) (member : client ∈ clients) (now : Nat)
    (assignment : Assignment) :
    (server.assign now assignment).records client = server.records client := by
  have opened := hosts.opened client member
  unfold records
  rw [replica?_assign, Bool.eq_iff_iff, beq_iff_eq, beq_iff_eq, Option.filter_eq_some_iff]
  simp [opened]

theorem frames_assign (hosts : server.Hosts clients) (member : client ∈ clients) (now : Nat)
    (assignment : Assignment) :
    (server.assign now assignment).outboxes.frames client.outbox =
      server.outboxes.frames client.outbox ++
        if server.records client then [.value assignment.toValue] else [] := by
  rw [Server.frames_assign, hosts.places_eq member]
  cases server.records client <;> simp [hosts.opened client member]

end Hosts

end Server

namespace Move

variable {server : Server} {clients : List Server.Client} {client : Server.Client} {move : Move}
  {moves : List Move}

/-- What a move queues for a client of a server. -/
def sent (server : Server) (client : Server.Client) : Move → List Frame
  | announce other => if other = client then [.value server.resyncAnnouncement] else []
  | copy other => if other = client then [.snapshot Snapshot.empty] else []
  | record _ => []
  | write _ _ assignment => if server.records client then [.value assignment.toValue] else []
  | confirm other => if other = client then [.value (.simple "OK")] else []

/-- All that a move comes to for the clients of a primary. -/
structure Made (clients : List Server.Client) (move : Move) (before after : Server) : Prop where
  hosts : after.Hosts clients
  replicationId : after.replicationId = before.replicationId
  records : ∀ client ∈ clients,
    after.records client = (decide (move = .record client) || before.records client)
  frames : ∀ client ∈ clients,
    after.outboxes.frames client.outbox = before.outboxes.frames client.outbox ++ move.sent before client

private theorem made_push (hosts : server.Hosts clients) {other : Server.Client} (own : other ∈ clients)
    {frame : Frame} (quiet : ∀ client, move ≠ .record client)
    (queued : ∀ client, move.sent server client = if other = client then [frame] else []) :
    Made clients move server (server.push other.outbox frame) where
  hosts := hosts.push _ _
  replicationId := rfl
  records client _ := by
    rw [decide_eq_false (quiet client), Bool.false_or]
    rfl
  frames client member := by
    rw [hosts.frames_push member own, queued]

theorem made_apply (hosts : server.Hosts clients) (own : move.client ∈ clients) :
    Made clients move server (move.apply server) := by
  cases move with
  | announce other => exact made_push hosts own (by simp) fun _ => rfl
  | copy other => exact made_push hosts own (by simp) fun _ => rfl
  | record other =>
    refine ⟨hosts.register own, rfl, fun client member => ?_, fun client member => ?_⟩
    · have registered : (apply server (record other)).records client =
          (decide (other = client) || server.records client) := hosts.records_register member own
      simpa using registered
    · exact (List.append_nil _).symm
  | write other now assignment =>
    refine ⟨hosts.assign now assignment, Server.replicationId_propagate _ _, fun client member => ?_,
      fun client member => hosts.frames_assign member now assignment⟩
    have assigned : (apply server (write other now assignment)).records client =
        server.records client := hosts.records_assign member now assignment
    simpa using assigned
  | confirm other => exact made_push hosts own (by simp) fun _ => rfl

/-- A run keeps the clients of a primary apart, and what a client was sent before stays in front. -/
structure Ran (clients : List Server.Client) (moves : List Move) (before after : Server) : Prop where
  hosts : after.Hosts clients
  replicationId : after.replicationId = before.replicationId
  records : ∀ client ∈ clients,
    after.records client = (before.records client || decide (.record client ∈ moves))
  frames : ∀ client ∈ clients,
    before.outboxes.frames client.outbox <+: after.outboxes.frames client.outbox

theorem ran_run (hosts : server.Hosts clients) (own : ∀ move ∈ moves, move.client ∈ clients) :
    Ran clients moves server (run server moves) := by
  induction moves generalizing server with
  | nil => exact ⟨hosts, rfl, by simp [run], fun _ _ => List.prefix_rfl⟩
  | cons move rest ih =>
    obtain ⟨here, later⟩ := List.forall_mem_cons.mp own
    have made := made_apply hosts here
    have ran := ih made.hosts later
    refine ⟨ran.hosts, ran.replicationId.trans made.replicationId, ?_, ?_⟩
    · intro client member
      have recorded := ran.records client member
      rw [made.records client member] at recorded
      rw [run, List.foldl_cons, ← run, recorded]
      simp only [List.mem_cons, Bool.decide_or, eq_comm]
      cases server.records client <;> simp
    · intro client member
      refine List.IsPrefix.trans ?_ (ran.frames client member)
      rw [made.frames client member]
      exact List.prefix_append _ _

/-- What moves assign that come while a client is recorded, or is not. -/
def fedBy (recorded : Bool) (moves : List Move) : List Assignment :=
  if recorded then moves.filterMap write? else []

private theorem fedBy_cons (recorded : Bool) (move : Move) (rest : List Move) :
    fedBy recorded (move :: rest) = fedBy recorded [move] ++ fedBy recorded rest := by
  cases recorded with
  | true => cases move <;> rfl
  | false => rfl

private theorem sent_of_other (server : Server) (other : move.client ≠ client) :
    move.sent server client = (fedBy (server.records client) [move]).map Subscription.frame := by
  cases move with
  | write writer now assignment =>
    unfold sent
    cases server.records client <;> rfl
  | record recorded => cases server.records client <;> rfl
  | _ =>
    refine (if_neg other).trans ?_
    cases server.records client <;> rfl

/-- While others move, a client is sent copies of what they assign if it is recorded, and nothing
if it is not. -/
theorem frames_run_of_others (hosts : server.Hosts clients)
    (own : ∀ move ∈ moves, move.client ∈ clients) (member : client ∈ clients)
    (others : ∀ move ∈ moves, move.client ≠ client) :
    (run server moves).outboxes.frames client.outbox =
      server.outboxes.frames client.outbox ++
        (fedBy (server.records client) moves).map Subscription.frame := by
  induction moves generalizing server with
  | nil => simp [run, fedBy]
  | cons move rest ih =>
    obtain ⟨here, later⟩ := List.forall_mem_cons.mp own
    obtain ⟨other, behind⟩ := List.forall_mem_cons.mp others
    have made := made_apply hosts here
    have same : (move.apply server).records client = server.records client := by
      have differ : move ≠ .record client := fun equal => other (by rw [equal, Move.client])
      rw [made.records client member, decide_eq_false differ, Bool.false_or]
    have ran := ih made.hosts later behind
    rw [run, List.foldl_cons, ← run, ran, same, made.frames client member, sent_of_other server other,
      fedBy_cons _ move rest, List.map_append, List.append_assoc]

end Move

end RespKeyspace
