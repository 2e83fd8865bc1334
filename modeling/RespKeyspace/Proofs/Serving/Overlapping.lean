import RespKeyspace.Proofs.Serving.Moves

/-! Full copies of a primary whose clients are served at the same time. The moves of other clients
may come in between: behind the announcement of a full copy they can reach the queue before the
snapshot does. -/

namespace RespKeyspace

namespace Snapshot

private theorem read_line {mark : UInt8} {content : Bytes} (other : mark ≠ Value.bulkMark)
    (differ : mark ≠ Bytes.carriageReturn) (whole : ¬ Bytes.lineEnd <:+: content) (rest : Bytes) :
    read (Value.line mark content ++ rest) = .malformed .invalidHeader := by
  rw [read_of_splitLine? (Bytes.splitLine?_line differ whole rest)]
  exact if_neg other

private theorem read_assignment (assignment : Assignment) (rest : Bytes) :
    read (assignment.toValue.encode ++ rest) = .malformed .invalidHeader := by
  rw [Assignment.toValue, Value.ofParts, Value.encode_array, List.append_assoc]
  exact read_line (by decide) (by decide)
    (Bytes.not_lineEnd_infix_of_notMem (Decimal.carriageReturn_notMem_ofNat _)) _

end Snapshot

namespace Incoming

def readCopy (input : Incoming) : Except ReadFault (Value × Bytes) × Incoming :=
  match input.readOne with
  | (.error fault, left) => (.error fault, left)
  | (.ok reply, later) =>
    match later.readSnapshot with
    | (.error fault, left) => (.error fault, left)
    | (.ok payload, left) => (.ok (reply, payload), left)

/-- Behind an announcement, a peer reads the snapshot if nothing stands in between, and no snapshot
if an assignment does. -/
theorem readCopy_delivered {server : Server}
    (oneLine : ¬ ['\r', '\n'] <:+: server.replicationId.toList) (writes : List Assignment)
    (behind : List Frame) {input : Incoming} {failure : Option String}
    (delivers : input.Delivers
      ((Frame.value server.resyncAnnouncement :: (writes.map Subscription.frame ++
        .snapshot Snapshot.empty :: behind)).flatMap Frame.encode) failure) :
    if writes = [] then
      ∃ left, input.readCopy = (.ok (server.resyncAnnouncement, Snapshot.empty), left) ∧
        left.Delivers (behind.flatMap Frame.encode) failure
    else input.readCopy.1 = .error (.snapshot .invalidHeader) := by
  have formed : Value.WellFormed Value.maxDepth server.resyncAnnouncement :=
    .simple (Server.unbroken_resyncAnnouncement oneLine)
  rw [List.flatMap_cons] at delivers
  obtain ⟨later, first, rest⟩ := await_of_value Value.read_stable delivers (Value.read_encode formed _)
  have reply : input.readOne = (.ok server.resyncAnnouncement, later) := first
  unfold readCopy
  rw [reply]
  cases writes with
  | nil =>
    obtain ⟨left, second, last⟩ := await_of_value Snapshot.read_stable rest
      (Snapshot.read_encode (by decide) (behind.flatMap Frame.encode))
    have payload : later.readSnapshot = (.ok Snapshot.empty, left) := second
    rw [if_pos rfl]
    exact ⟨left, by simp only [payload], last⟩
  | cons assignment others =>
    have refused : later.readSnapshot.1 = .error (.snapshot .invalidHeader) :=
      await_of_malformed Snapshot.read_stable rest (Snapshot.read_assignment assignment _)
    rw [if_neg (List.cons_ne_nil _ _)]
    dsimp only
    cases read : later.readSnapshot with
    | mk result left =>
    rw [read] at refused
    simp only at refused
    simp only [refused]

end Incoming

namespace Move

variable {server : Server} {clients : List Server.Client} {client : Server.Client}
  {moves before after : List Move}

private theorem run_append_cons (server : Server) (front : List Move) (move : Move) (rest : List Move) :
    run server (front ++ move :: rest) = run (move.apply (run server front)) rest := by
  simp [run]

/-- The frames that a client is sent in a run, behind those it was sent before. -/
def queue (server : Server) (client : Server.Client) (moves : List Move) : List Frame :=
  (run server moves).outboxes.frames client.outbox

theorem queue_behind_announce (hosts : server.Hosts clients) (member : client ∈ clients)
    (ownBefore : ∀ move ∈ before, move.client ∈ clients)
    (ownAfter : ∀ move ∈ after, move.client ∈ clients) (others : ∀ move ∈ after, move.client ≠ client) :
    queue server client (before ++ .announce client :: after) =
      queue server client before ++ .value server.resyncAnnouncement ::
        (fedBy (server.records client || decide (.record client ∈ before)) after).map
          Subscription.frame := by
  have earlier := ran_run hosts ownBefore
  have announced := @made_apply _ _ (.announce client) earlier.hosts member
  have same : (apply (run server before) (.announce client)).records client =
      (server.records client || decide (.record client ∈ before)) := by
    rw [announced.records client member, earlier.records client member]
    simp
  have line : (announce client).sent (run server before) client =
      [.value server.resyncAnnouncement] := by
    rw [sent, if_pos rfl, Server.resyncAnnouncement, earlier.replicationId]
    rfl
  have sent := frames_run_of_others announced.hosts ownAfter member others
  rw [same, announced.frames client member, line, List.append_assoc] at sent
  rw [queue, run_append_cons]
  exact sent

theorem queue_behind_copy (hosts : server.Hosts clients) (member : client ∈ clients)
    (ownBefore : ∀ move ∈ before, move.client ∈ clients)
    (ownAfter : ∀ move ∈ after, move.client ∈ clients) :
    ∃ behind, queue server client (before ++ .copy client :: after) =
      queue server client before ++ .snapshot Snapshot.empty :: behind := by
  have copied := @made_apply _ _ (.copy client) (ran_run hosts ownBefore).hosts member
  obtain ⟨behind, grown⟩ := (ran_run copied.hosts ownAfter).frames client member
  have snapshot : (copy client).sent (run server before) client = [.snapshot Snapshot.empty] :=
    if_pos rfl
  rw [copied.frames client member, snapshot, List.append_assoc] at grown
  refine ⟨behind, ?_⟩
  rw [queue, run_append_cons]
  exact grown.symm

/-- Whatever clients of a primary ask for full copies and assign at the same time, behind each
announcement of a full copy a client is sent, in front of the snapshot, copies of what others assign
until the snapshot is queued, if the client was recorded before, and nothing at all if it was not.
A peer that reads one reply and then one snapshot, in whatever pieces they arrive, is given both if
nothing stands in between, and is refused the snapshot otherwise. So its first full copy is given to
a client whatever others do. -/
theorem snapshot_stands_behind_announcement (hosts : server.Hosts clients)
    (own : ∀ move ∈ moves, move.client ∈ clients)
    (oneLine : ¬ ['\r', '\n'] <:+: server.replicationId.toList) (interleaves : Interleaves moves)
    (here : moves = before ++ .announce client :: after) :
    let between := after.takeWhile (·.client ≠ client)
    let writes := fedBy (server.records client || decide (.record client ∈ before)) between
    let sent := Frame.value server.resyncAnnouncement :: writes.map Subscription.frame
    after = between ∧ queue server client moves = queue server client before ++ sent ∨
      ∃ behind rest, after = between ++ .copy client :: rest ∧
        queue server client moves =
          queue server client before ++ sent ++ .snapshot Snapshot.empty :: behind ∧
        ∀ input failure,
          Incoming.Delivers input
            ((sent ++ .snapshot Snapshot.empty :: behind).flatMap Frame.encode) failure →
          if writes = [] then
            ∃ left, input.readCopy = (.ok (server.resyncAnnouncement, Snapshot.empty), left) ∧
              left.Delivers (behind.flatMap Frame.encode) failure
          else input.readCopy.1 = .error (.snapshot .invalidHeader) := by
  intro between writes sent
  obtain ⟨ownBefore, ownHere⟩ := List.forall_mem_append.mp (here ▸ own)
  have member : client ∈ clients := ownHere (.announce client) List.mem_cons_self
  have ownAfter : ∀ move ∈ after, move.client ∈ clients := fun move later =>
    ownHere move (List.mem_cons_of_mem _ later)
  have ownBetween : ∀ move ∈ between, move.client ∈ clients := fun move found =>
    ownAfter move ((List.takeWhile_prefix _).subset found)
  have others : ∀ move ∈ between, move.client ≠ client := fun move found => by
    simpa using List.all_eq_true.mp List.all_takeWhile _ found
  have reached : queue server client (before ++ .announce client :: between) =
      queue server client before ++ sent :=
    queue_behind_announce hosts member ownBefore ownBetween others
  rcases interleaves.behind_announce here with all | ⟨rest, found⟩
  · refine .inl ⟨all, ?_⟩
    rw [← reached, here]
    exact congrArg (fun later => queue server client (before ++ .announce client :: later)) all
  · have ownFront : ∀ move ∈ before ++ .announce client :: between, move.client ∈ clients :=
      List.forall_mem_append.mpr ⟨ownBefore, List.forall_mem_cons.mpr ⟨member, ownBetween⟩⟩
    have ownRest : ∀ move ∈ rest, move.client ∈ clients := fun move later =>
      ownAfter move (found ▸ by simp [later])
    have whole : moves = (before ++ .announce client :: between) ++ .copy client :: rest := by
      rw [here, List.append_assoc, List.cons_append]
      exact congrArg (fun later => before ++ .announce client :: later) found
    obtain ⟨behind, queued⟩ := queue_behind_copy hosts member ownFront ownRest
    rw [← whole, reached] at queued
    exact .inr ⟨behind, rest, found, queued, fun input failure delivers =>
      Incoming.readCopy_delivered oneLine writes behind delivers⟩

private theorem interleaves_of_two {one other : Server.Client} {first second : List Job}
    (both : ∀ move ∈ moves, move.client = one ∨ move.client = other)
    (ofOne : moves.filter (·.client = one) <+: first.flatMap (·.moves one))
    (ofOther : moves.filter (·.client = other) <+: second.flatMap (·.moves other)) :
    Interleaves moves := by
  intro client
  by_cases isOne : client = one
  · exact ⟨first, isOne ▸ ofOne⟩
  by_cases isOther : client = other
  · exact ⟨second, isOther ▸ ofOther⟩
  have absent : moves.filter (·.client = client) = [] := by
    apply List.filter_eq_nil_iff.mpr
    intro move member
    rcases both move member with same | same
    · simpa [same] using Ne.symm isOne
    · simpa [same] using Ne.symm isOther
  exact ⟨[], by rw [absent]; exact List.nil_prefix⟩

/-- A client asks for its first full copy, and another one assigns before the snapshot is queued: the
snapshot stands right behind the announcement, and whoever reads the queue is given both. -/
theorem first_full_copy_is_whole :
    let server := { Server.start (.primary .empty) "id" with outboxes := Outboxes.none.create.create }
    let one : Server.Client := ⟨"one", 0⟩
    let other : Server.Client := ⟨"other", 1⟩
    let written : Assignment := ⟨Bytes.ofText "k", Bytes.ofText "v", none⟩
    let moves := [.announce one, .write other 0 written, .confirm other, .copy one, .record one]
    let queued : List Frame := [.value (.simple "FULLRESYNC id 0"), .snapshot Snapshot.empty]
    Interleaves moves ∧ server.Hosts [one, other] ∧ queue server one moves = queued ∧
      ∀ input, Incoming.Delivers input (queued.flatMap Frame.encode) none →
        ∃ left, input.readCopy = (.ok (.simple "FULLRESYNC id 0", Snapshot.empty), left) := by
  intro server one other written moves queued
  have interleaves : Interleaves moves :=
    @interleaves_of_two _ one other [.sync] [.assign 0 written] (by decide) (by decide) (by decide)
  have hosts : server.Hosts [one, other] := by
    refine ⟨rfl, by decide, by decide, by decide, ?_⟩
    intro client _ address found
    cases found
  have reached : queue server one moves = queued := by decide +kernel
  refine ⟨interleaves, hosts, reached, fun input delivers => ?_⟩
  rcases @snapshot_stands_behind_announcement server [one, other] one moves [] _ hosts
    (by decide) (by decide) interleaves rfl with ⟨absurd, _⟩ | ⟨behind, _, _, grown, given⟩
  · cases absurd
  · have last : behind = [] := by
      rw [reached] at grown
      exact (List.cons.inj (List.cons.inj grown).2).2.symm
    subst last
    obtain ⟨left, read, _⟩ := (if_pos (by decide)).mp (given input none delivers)
    exact ⟨left, read⟩

/-- A client that has its full copy asks for another one, and another client assigns before the second
snapshot is queued: a copy of the assignment stands behind the second announcement, and whoever reads
on from there is given no snapshot. -/
theorem second_full_copy_is_torn :
    let server := { Server.start (.primary .empty) "id" with outboxes := Outboxes.none.create.create }
    let one : Server.Client := ⟨"one", 0⟩
    let other : Server.Client := ⟨"other", 1⟩
    let written : Assignment := ⟨Bytes.ofText "k", Bytes.ofText "v", none⟩
    let moves := [.announce one, .copy one, .record one, .announce one, .write other 0 written,
      .confirm other, .copy one, .record one]
    let announcement : Frame := .value (.simple "FULLRESYNC id 0")
    let torn := [announcement, .value written.toValue, .snapshot Snapshot.empty]
    Interleaves moves ∧ server.Hosts [one, other] ∧
      queue server one moves = [announcement, .snapshot Snapshot.empty] ++ torn ∧
      ¬ (∀ front back, queue server one moves = front ++ announcement :: back →
        [.snapshot Snapshot.empty] <+: back) ∧
      (Incoming.readCopy ⟨torn.flatMap Frame.encode, [], none⟩).1 = .error (.snapshot .invalidHeader) := by
  intro server one other written moves announcement torn
  have interleaves : Interleaves moves :=
    @interleaves_of_two _ one other [.sync, .sync] [.assign 0 written] (by decide) (by decide)
      (by decide)
  have hosts : server.Hosts [one, other] := by
    refine ⟨rfl, by decide, by decide, by decide, ?_⟩
    intro client _ address found
    cases found
  have reached : queue server one moves = [announcement, .snapshot Snapshot.empty] ++ torn := by
    decide +kernel
  refine ⟨interleaves, hosts, reached, ?_, by decide +kernel⟩
  intro paired
  have behind := paired [announcement, .snapshot Snapshot.empty] _ reached
  exact absurd behind (by decide)

end Move

end RespKeyspace
