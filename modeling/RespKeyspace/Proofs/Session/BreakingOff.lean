import RespKeyspace.Proofs.Session.Routing

/-! A client whose connection is broken off. Nobody, that client included, can tell this from a
client that ends on its own in front of what broke it off. -/

namespace RespKeyspace

namespace Value

/-- Bytes that break a client's connection off: no value at all, a value that is no request, or
a request under a name that no command has. -/
inductive Breaks : Bytes → Prop where
  | malformed {bytes : Bytes} {fault : FrameFault} (found : read bytes = .malformed fault) :
      Breaks bytes
  | noRequest {bytes : Bytes} {value : Value} (found : read bytes = .value value [])
      (other : value.isRequest = false) : Breaks bytes
  | unknown {bytes : Bytes} {value : Value} (found : read bytes = .value value [])
      (unknown : value.isUnknown = true) : Breaks bytes

variable {bytes : Bytes} {frames : List Bytes}

private theorem Breaks.decoded (breaks : Breaks bytes) (more : Bytes) :
    (∃ fault, decoded (bytes ++ more) = ⟨[], some fault, bytes ++ more⟩) ∨
      ∃ value, value.isFatal = true ∧ decoded (bytes ++ more) = (decoded more).after [value] := by
  cases breaks with
  | malformed found => exact .inl ⟨_, decoded_append_of_malformed found more⟩
  | @noRequest value found other =>
    refine .inr ⟨value, ?_, decoded_of_value (read_stable.value found more)⟩
    rw [isFatal_eq, other]
    rfl
  | @unknown value found unknown =>
    refine .inr ⟨value, ?_, decoded_of_value (read_stable.value found more)⟩
    rw [isFatal_eq, unknown, Bool.or_true]

private theorem decoded_flatten (whole : ∀ frame ∈ frames, ∃ value, read frame = .value value []) :
    ∃ values, ∀ rest, decoded (frames.flatten ++ rest) = (decoded rest).after values := by
  induction frames with
  | nil => exact ⟨[], fun rest => by simp⟩
  | cons frame later ih =>
    obtain ⟨value, found⟩ := whole frame List.mem_cons_self
    obtain ⟨values, behind⟩ := ih fun other member => whole other (List.mem_cons_of_mem frame member)
    refine ⟨value :: values, fun rest => ?_⟩
    have first := decoded_of_value (read_stable.value found (later.flatten ++ rest))
    rw [List.flatten_cons, List.append_assoc, first, List.nil_append, behind, Decoded.after_after]
    rfl

end Value

namespace Outboxes

private theorem waiting_map_collect (outboxes : Outboxes) (box : OutboxId) :
    waiting ⟨outboxes.boxes.map Outbox.collect⟩ box = [] := by
  unfold waiting find?
  rw [List.getElem?_map]
  cases outboxes.boxes[box]? <;> simp

end Outboxes

namespace Server

private theorem serveOne_of_isFatal {value : Value} (fatal : value.isFatal = true) (now : Nat)
    (client : Client) (server : Server) : serveOne now client value server = (false, server) := by
  obtain ⟨refusal, refused, ends⟩ := Value.isFatal_iff.mp fatal
  rw [serveOne, serve_of_error server now refused]
  exact if_pos ends

private theorem runUntil_append_of_end {execute : Value → Server → Bool × Server} {value : Value}
    (ends : ∀ server, execute value server = (false, server)) (values rest : List Value)
    (server : Server) :
    runUntil execute (values ++ value :: rest) server = (false, (runUntil execute values server).2) := by
  rw [runUntil_append]
  split
  · rw [runUntil, ends]
  · rename_i ended
    exact Prod.ext (Bool.eq_false_iff.mpr ended) rfl

end Server

namespace Connection

/-- Whole frames of a client, alone and with something behind them that breaks the connection
off: the same is executed, and the only difference is that a connection may still be open. -/
theorem receive_breaking {connection : Connection} (isClient : connection.kind = .client)
    {frames : List Bytes} (whole : ∀ frame ∈ frames, ∃ value, Value.read frame = .value value [])
    {bad : Bytes} (breaks : Value.Breaks bad) (more : Bytes) (now : Nat) (server : Server) :
    ∃ goesOn after,
      connection.receive now (frames.flatten ++ bad ++ more) server = (none, connection.finish after) ∧
      connection.receive now frames.flatten server =
        if goesOn = true then (some [], after) else (none, connection.finish after) := by
  obtain ⟨values, held⟩ := Value.decoded_flatten whole
  have alone := held []
  rw [List.append_nil, Value.decoded_nil] at alone
  let ran := Server.runUntil (connection.execute now) values server
  have ends : ∀ value, value.isFatal = true → ∀ server,
      connection.execute now value server = (false, server) := by
    intro value fatal server
    rw [execute, isClient]
    exact Server.serveOne_of_isFatal fatal now connection.client server
  have broken : Server.settle (connection.execute now)
      (Value.decoded (frames.flatten ++ bad ++ more)) server = (none, ran.2) := by
    rw [List.append_assoc, held]
    rcases breaks.decoded more with ⟨fault, found⟩ | ⟨value, fatal, found⟩
    · simp [found, Server.settle, ran]
    · have ended := Server.runUntil_append_of_end (ends value fatal) values
        (Value.decoded more).values server
      simp [found, Server.settle, ended, ran]
  refine ⟨ran.1, ran.2, ?_, ?_⟩
  · rw [receive_eq, broken]
    rfl
  · have settled : Server.settle (connection.execute now) (Value.decoded frames.flatten) server =
        (if ran.1 = true then some [] else none, ran.2) := by
      simp [alone, Server.settle, ran]
    rw [receive_eq, settled]
    cases ran.1 <;> rfl

end Connection

namespace Network

/-- Several steps, with all that is waiting handed over after each, and what the peers see. -/
def observeAll (network : Network) : List Step → List Observation × Network
  | [] => ([], network)
  | step :: rest =>
    let (seen, after) := network.observe step
    let (later, last) := after.observeAll rest
    (seen :: later, last)

variable {network : Network} {connection : Connection} {name : String}

private theorem updateNamed_updateNamed (pending later : Pending) (connections : List Connection) :
    updateNamed name ({ · with pending := later }) (updateNamed name ({ · with pending }) connections) =
      updateNamed name ({ · with pending := later }) connections := by
  induction connections with
  | nil => rfl
  | cons first rest ih =>
    by_cases here : first.name = name <;> simp [updateNamed, here, ih]

/-- Being broken off comes to the same as ending in front of what broke the connection off. -/
theorem send_breaking (found : network.find? connection.name = some connection)
    (isClient : connection.kind = .client) (idle : connection.pending = some [])
    {frames : List Bytes} (whole : ∀ frame ∈ frames, ∃ value, Value.read frame = .value value [])
    {bad : Bytes} (breaks : Value.Breaks bad) (more : Bytes) :
    network.send connection.name (frames.flatten ++ bad ++ more) =
      (network.send connection.name frames.flatten).finish connection.name := by
  obtain ⟨goesOn, after, broken, alone⟩ :=
    connection.receive_breaking isClient whole breaks more network.now network.server
  rw [send_of_pending found idle, send_of_pending found idle, List.nil_append, List.nil_append,
    broken, alone]
  have changed : ∀ pending : Pending, (network.setPending connection.name pending).find?
      connection.name = some { connection with pending } := fun pending =>
    find?_updateNamed ({ · with pending }) rfl found
  cases goesOn with
  | true =>
    let stays : Network := { network.setPending connection.name (some []) with server := after }
    have still : stays.find? connection.name = some { connection with pending := some [] } :=
      changed (some [])
    have finished : stays.finish connection.name =
        { stays.setPending connection.name none with server := connection.finish after } :=
      @finish_of_open stays { connection with pending := some [] } still rfl
    have closed : stays.setPending connection.name none =
        { network.setPending connection.name none with server := after } := by
      simp [stays, setPending, updateNamed_updateNamed]
    rw [closed] at finished
    exact finished.symm
  | false =>
    let ended : Network :=
      { network.setPending connection.name none with server := connection.finish after }
    have closed : ended.find? connection.name = some { connection with pending := none } :=
      changed none
    have finished : ended.finish connection.name = ended :=
      @finish_of_closed ended { connection with pending := none } closed rfl
    exact finished.symm

/-! What peers see. -/

private theorem handOver_handOver (network : Network) :
    network.handOver.handOver = network.handOver := by
  simp only [handOver, List.map_map]
  rfl

private theorem finish_handOver (network : Network) (name : String) :
    network.handOver.finish name = (network.finish name).handOver := by
  unfold finish
  have same : network.handOver.find? name = network.find? name := rfl
  rw [same]
  cases network.find? name with
  | none => rfl
  | some connection =>
    cases opened : connection.isOpen with
    | true =>
      simp only [opened, if_true, handOver, Connection.outboxes_finish]
      unfold Connection.finish
      cases connection.kind <;> rfl
    | false => simp [opened]

private theorem received_eq (before after : Network) :
    (observation before after).received =
      (after.connections.map fun connection => (connection.name, connection.outbox)).reverse.filterMap
        fun route => match (after.server.outboxes.waiting route.2).flatMap Frame.encode with
          | [] => none
          | bytes => some (route.1, bytes) := by
  rw [← List.map_reverse, List.filterMap_map]
  rfl

private theorem received_finish (before earlier network : Network) (name : String) :
    (observation before (network.finish name)).received = (observation earlier network).received := by
  rw [received_eq, received_eq]
  rcases network.finish_cases name with same | ⟨connection, closed⟩
  · rw [same]
  · rw [closed]
    dsimp only
    rw [connection.outboxes_finish, setPending, map_setPending fun _ => rfl]

private theorem received_handOver (before network : Network) :
    (observation before network.handOver).received = [] := by
  rw [received_eq]
  apply List.filterMap_eq_nil_iff.mpr
  intro route _
  simp [handOver, Outboxes.waiting_map_collect]

private theorem newlyClosed_concat {before after : List Connection}
    (same : before.length = after.length)
    (earlier later : Connection) :
    newlyClosed (before ++ [earlier]) (after ++ [later]) =
      newlyClosed before after ++ if earlier.isOpen && !later.isOpen then [later] else [] := by
  induction before generalizing after with
  | nil =>
    obtain rfl := List.length_eq_zero_iff.mp same.symm
    rw [List.nil_append, List.nil_append, newlyClosed]
    split <;> simp [newlyClosed]
  | cons first rest ih =>
    obtain ⟨next, behind, rfl⟩ := List.exists_cons_of_length_eq_add_one same.symm
    rw [List.cons_append, List.cons_append, newlyClosed, newlyClosed, ih (Nat.succ.inj same)]
    split <;> simp

private theorem newlyClosed_self (connections : List Connection) :
    newlyClosed connections connections = [] := by
  induction connections with
  | nil => rfl
  | cons first rest ih => simp [newlyClosed, ih]

private theorem newlyClosed_setPending {connections : List Connection} {pending : Pending}
    (found : connections.find? (·.name = name) = some connection) (opened : connection.isOpen = true) :
    (newlyClosed connections.reverse
      (updateNamed name ({ · with pending }) connections).reverse).map Connection.name =
        if pending = none then [name] else [] := by
  induction connections with
  | nil => cases found
  | cons first rest ih =>
    unfold updateNamed
    by_cases here : first.name = name
    · obtain rfl : first = connection := by simpa [here] using found
      rw [if_pos here, List.reverse_cons, List.reverse_cons, newlyClosed_concat (by simp),
        newlyClosed_self, opened]
      cases pending <;> simp [Connection.isOpen, here]
    · have behind : rest.find? (·.name = name) = some connection := by simpa [here] using found
      have length : (updateNamed name ({ · with pending }) rest).length = rest.length := by
        have names := map_setPending (fun connection => rfl : ∀ connection : Connection,
          Connection.name { connection with pending } = connection.name) name rest
        simpa using congrArg List.length names
      rw [if_neg here, List.reverse_cons, List.reverse_cons, newlyClosed_concat (by simp [length]),
        List.map_append, ih behind]
      cases first.isOpen <;> simp

private theorem closed_send (found : network.find? connection.name = some connection) {held : Bytes}
    (pending : connection.pending = some held) (content : Bytes) :
    (observation network (network.send connection.name content)).closed =
      if (connection.receive network.now (held ++ content) network.server).1 = none then
        [connection.name]
      else [] := by
  rw [send_of_pending found pending]
  exact newlyClosed_setPending found (by simp [Connection.isOpen, pending])

private theorem closed_finish (found : network.find? connection.name = some connection) :
    (observation network (network.finish connection.name)).closed =
      if connection.isOpen = true then [connection.name] else [] := by
  split
  · rename_i opened
    rw [finish_of_open found opened]
    exact newlyClosed_setPending found opened
  · rename_i closed
    rw [finish_of_closed found (Bool.eq_false_iff.mpr closed)]
    simp [observation, newlyClosed_self]

/-- Let a client that holds no part of a frame send whole frames, with something right behind
them that breaks its connection off and then anything, or let it send the frames and end. In
both cases it is closed, nobody else is, and everybody receives the same. From then on the two
networks are one: in every later step peers see the same, and keys, offset, replicas on record,
queues and connections are the same. -/
theorem breaking_off_is_seen_as_ending (found : network.find? connection.name = some connection)
    (isClient : connection.kind = .client) (idle : connection.pending = some [])
    {frames : List Bytes} (whole : ∀ frame ∈ frames, ∃ value, Value.read frame = .value value [])
    {bad : Bytes} (breaks : Value.Breaks bad) (more : Bytes) (later : List Step) :
    ∃ first second third behind last,
      network.observeAll (.send connection.name (frames.flatten ++ bad ++ more) :: later) =
        (first :: behind, last) ∧
      network.observeAll (.send connection.name frames.flatten :: .finish connection.name :: later) =
        (second :: third :: behind, last) ∧
      first.received = second.received ∧ third.received = [] ∧
      first.closed = [connection.name] ∧ second.closed ++ third.closed = [connection.name] := by
  let broken := network.send connection.name (frames.flatten ++ bad ++ more)
  let sent := network.send connection.name frames.flatten
  have same : broken = sent.finish connection.name :=
    send_breaking found isClient idle whole breaks more
  have ended : (sent.handOver.finish connection.name).handOver = broken.handOver := by
    rw [finish_handOver, handOver_handOver, same]
  let received := connection.receive network.now frames.flatten network.server
  have still : sent.handOver.find? connection.name = some { connection with pending := received.1 } := by
    have changed := find?_updateNamed ({ · with pending := received.1 }) rfl found
    have shape : sent = { network.setPending connection.name received.1 with server := received.2 } :=
      send_of_pending found idle frames.flatten
    rw [shape]
    exact changed
  refine ⟨observation network broken, observation network sent,
    observation sent.handOver (sent.handOver.finish connection.name),
    (broken.handOver.observeAll later).1, (broken.handOver.observeAll later).2, rfl, ?_, ?_, ?_, ?_, ?_⟩
  · rw [← ended]
    rfl
  · rw [same, received_finish network network]
  · rw [finish_handOver, received_handOver]
  · obtain ⟨_, _, closed, _⟩ :=
      connection.receive_breaking isClient whole breaks more network.now network.server
    rw [closed_send found idle, List.nil_append, closed]
    rfl
  · have before := closed_send found idle frames.flatten
    have behind := @closed_finish sent.handOver { connection with pending := received.1 } still
    rw [before, behind, List.nil_append]
    cases pending : received.1 <;> simp [Connection.isOpen]

/-- A replica assigns a key and sends an unknown command right behind. It is fed its own
assignment, and no later one, as if it had ended in good order. -/
theorem replica_broken_off_is_forgotten :
    let network := (start (Server.start (.primary .empty) "id")).run
      [.openClient "a", .openClient "b", .send "a" (Value.ofWords ["PSYNC"]).encode]
    let connection : Connection := ⟨"a", .client, 0, some []⟩
    let frames := [(Value.ofWords ["SET", "k", "v"]).encode, Bytes.ofText "*1\r\n$+4\r\nPING\r\n"]
    let bad := (Value.ofWords ["NONE", "x"]).encode
    let later := [Step.send "b" (Value.ofWords ["SET", "k", "w"]).encode]
    network.find? "a" = some connection ∧
      (∀ frame ∈ frames, ∃ value, Value.read frame = .value value []) ∧ Value.Breaks bad ∧
      (network.observeAll (.send "a" (frames.flatten ++ bad ++ Bytes.ofText "*9") :: later)).2 =
        (network.observeAll (.send "a" frames.flatten :: .finish "a" :: later)).2 ∧
      (network.observeAll (.send "a" frames.flatten :: .finish "a" :: later)).2.server.offset = 27 := by
  intro network connection frames bad later
  have found : network.find? connection.name = some connection := by decide +kernel
  have whole : ∀ frame ∈ frames, ∃ value, Value.read frame = .value value [] := by
    intro frame member
    rcases List.mem_pair.mp member with rfl | rfl
    · exact ⟨Value.ofWords ["SET", "k", "v"], by decide +kernel⟩
    · exact ⟨Value.ofWords ["PING"], by decide +kernel⟩
  have breaks : Value.Breaks bad :=
    .unknown (by decide +kernel : Value.read bad = .value (Value.ofWords ["NONE", "x"]) [])
      (by decide +kernel)
  obtain ⟨_, _, _, _, _, broken, ended, _⟩ :=
    breaking_off_is_seen_as_ending found rfl rfl whole breaks (Bytes.ofText "*9") later
  exact ⟨found, whole, breaks, (congrArg Prod.snd broken).trans (congrArg Prod.snd ended).symm,
    by decide +kernel⟩

end Network

end RespKeyspace
