import RespKeyspace.Proofs.Link.Accounting
import RespKeyspace.Proofs.Session.Events

/-! What an event does to a server. Clients are sent pieces: the answer to a request of their
own, an announcement with its snapshot, or a copy of what somebody assigned. -/

namespace RespKeyspace

inductive Piece where
  | answer (reply : Value)
  | resync (announcement : Value)
  | copy (assignment : Assignment)
deriving Repr, DecidableEq

namespace Piece

/-- The frames of a piece. A snapshot follows its announcement. -/
def frames : Piece → List Frame
  | .answer reply => [.value reply]
  | .resync announcement => [.value announcement, .snapshot Snapshot.empty]
  | .copy assignment => [.value assignment.toValue]

def encode (piece : Piece) : Bytes := piece.frames.flatMap Frame.encode

def isCopy : Piece → Bool
  | .copy _ => true
  | _ => false

/-- What answers a request. Nothing answers a fatal refusal. -/
def ofOutcome? : Except Refusal Outcome → Option Piece
  | .ok .silent => none
  | .ok (.reply reply) => some (.answer reply)
  | .ok (.sync announcement) => some (.resync announcement)
  | .error refusal => if refusal.isFatal then none else some (.answer refusal.reply)

theorem isCopy_ofOutcome? {outcome : Except Refusal Outcome} {piece : Piece}
    (found : ofOutcome? outcome = some piece) : piece.isCopy = false := by
  unfold ofOutcome? at found
  split at found
  · cases found
  · cases found
    rfl
  · cases found
    rfl
  · split at found
    · cases found
    · cases found
      rfl

/-- Every copy stands behind an announcement. -/
def Announced (pieces : List Piece) : Prop :=
  ∀ front assignment behind, pieces = front ++ .copy assignment :: behind →
    ∃ announcement, .resync announcement ∈ front

theorem Announced.append {pieces more : List Piece} (announced : Announced pieces)
    (copies : ∀ piece ∈ more, piece.isCopy = true → ∃ announcement, .resync announcement ∈ pieces) :
    Announced (pieces ++ more) := by
  intro front assignment behind whole
  rcases List.append_eq_append_iff.mp whole with ⟨later, rfl, rest⟩ | ⟨earlier, rfl, rest⟩
  · obtain ⟨announcement, member⟩ := copies (.copy assignment) (by simp [rest]) rfl
    exact ⟨announcement, List.mem_append_left _ member⟩
  · cases earlier with
    | nil =>
      obtain rfl : .copy assignment :: behind = more := rest
      obtain ⟨announcement, member⟩ := copies (.copy assignment) List.mem_cons_self rfl
      exact ⟨announcement, by simpa using member⟩
    | cons first later =>
      obtain ⟨rfl, _⟩ := List.cons.inj rest
      exact announced front assignment later rfl

end Piece

namespace Value

def isSync (value : Value) : Bool :=
  match value.command with
  | .ok .psync => true
  | _ => false

private theorem isSync_iff {value : Value} : value.isSync = true ↔ value.command = .ok .psync := by
  unfold isSync
  split <;> simp_all

end Value

namespace Server

variable (server : Server) (now : Nat) (value : Value) (box : OutboxId)

variable {value} in
theorem serve_of_ok {command : Command} (accepted : value.command = .ok command) :
    server.serve now value = (.ok (server.perform now command).1, (server.perform now command).2) := by
  rw [serve_eq, accepted]

variable {value} in
theorem serve_of_error {refusal : Refusal} (refused : value.command = .error refusal) :
    server.serve now value = (.error refusal, server) := by
  rw [serve_eq, refused]

private theorem obey_snd (command : Command) :
    (server.obey now command).2 = (server.perform now command).2 := by
  unfold obey
  split <;> rfl

private theorem follow_snd : ∃ offset,
    (server.follow now value).2 = { (server.serve now value).2 with offset := offset } := by
  cases asked : value.command with
  | ok command =>
    rw [follow_of_ok asked, serve_of_ok _ _ asked, obey_snd]
    exact ⟨_, rfl⟩
  | error refusal =>
    rw [follow_of_error asked, serve_of_error _ _ asked]
    split
    · exact ⟨_, rfl⟩
    · exact ⟨_, rfl⟩

theorem keys_serve : (server.serve now value).2.keys = value.apply now server.keys := by
  rw [serve_eq]
  unfold Value.apply
  cases value.command with
  | error refusal => rfl
  | ok command =>
    cases command with
    | set assignment => exact server.keys_assign now assignment
    | _ => rfl

end Server

namespace Event

variable (event : Event)

/-- What answers the request of an event on a client's connection. -/
def answer? : Option Piece := Piece.ofOutcome? (event.server.serve event.now event.value).1

/-- What is queued on the connection of an event: an answer to a client, or an
acknowledgement to a primary. -/
def sent : List Frame :=
  match event.connection.kind with
  | .client => event.answer?.toList.flatMap Piece.frames
  | .primary =>
    match (event.server.follow event.now event.value).1 with
    | .ok (.reply reply) => [.value reply]
    | _ => []

/-- Whether an event has its connection recorded as a replica. -/
def subscribes : Bool := event.connection.kind == .client && event.value.isSync

theorem answer?_of_ok {command : Command} (accepted : event.value.command = .ok command) :
    event.answer? = Piece.ofOutcome? (.ok (event.server.perform event.now command).1) := by
  rw [answer?, Server.serve_of_ok _ _ accepted]

theorem answer?_of_error {refusal : Refusal} (refused : event.value.command = .error refusal) :
    event.answer? = if refusal.isFatal then none else some (.answer refusal.reply) := by
  rw [answer?, Server.serve_of_error _ _ refused]
  rfl

theorem answer?_eq_resync_iff :
    event.answer? = some (.resync event.server.resyncAnnouncement) ↔ event.value.isSync = true := by
  rw [Value.isSync_iff]
  cases asked : event.value.command with
  | error refusal =>
    rw [event.answer?_of_error asked]
    cases refusal.isFatal <;> simp
  | ok command =>
    rw [event.answer?_of_ok asked]
    cases command <;> simp [Server.perform, Piece.ofOutcome?]

/-- A server after an event that has sent some frames on its connection so far, and has had
it recorded or not. An accepted SET is fed to each place in which an outbox is recorded, and
forgets the replicas that can no longer be reached. -/
structure Effect (sent : List Frame) (recorded : Bool) (after : Server) : Prop where
  replicationId : after.replicationId = event.server.replicationId
  isPrimary : after.role.isPrimary = event.server.role.isPrimary
  keys : after.keys = event.value.apply event.now event.server.keys
  next : after.outboxes.next = event.server.outboxes.next
  isOpen : ∀ box, after.outboxes.isOpen box = event.server.outboxes.isOpen box
  replica? : ∀ address, after.replica? address =
    if recorded = true ∧ event.server.role.isPrimary = true ∧ address = event.connection.name then
      some event.connection.outbox
    else (event.server.replica? address).filter fun box =>
      event.value.write?.isNone || event.server.outboxes.isOpen box
  frames : ∀ box, event.server.outboxes.isOpen box = true →
    after.outboxes.frames box = event.server.outboxes.frames box ++
      (event.value.write?.toList.flatMap fun assignment =>
        List.replicate (event.server.places box) (.value assignment.toValue)) ++
      if event.connection.outbox = box then sent else []

variable {event} {sent : List Frame} {recorded : Bool} {after : Server}

private theorem effect_serve (event : Event) :
    event.Effect [] false (event.server.serve event.now event.value).2 := by
  have keys := event.server.keys_serve event.now event.value
  rcases event.server.serve_cases event.now event.value with
    ⟨assignment, asked, done⟩ | ⟨quiet, held, done⟩
  · rw [done] at keys ⊢
    refine ⟨Server.replicationId_propagate _ _, Server.isPrimary_assign _ _ _, keys,
      Server.next_assign _ _ _, Server.isOpen_assign _ _ _, ?_, ?_⟩
    · intro address
      rw [if_neg (by simp), Server.replica?_assign, asked]
      rfl
    · intro box opened
      rw [Server.frames_assign, if_pos opened, asked]
      simp
  · rw [done] at keys ⊢
    refine ⟨rfl, rfl, keys, rfl, fun _ => rfl, ?_, ?_⟩
    · intro address
      rw [if_neg (by simp), quiet]
      change event.server.replica? address = _
      cases event.server.replica? address <;> rfl
    · intro box opened
      rw [quiet]
      simp

namespace Effect

theorem offset (effect : event.Effect sent recorded after) (offset : UInt64) :
    event.Effect sent recorded { after with offset := offset } :=
  ⟨effect.replicationId, effect.isPrimary, effect.keys, effect.next, effect.isOpen,
    effect.replica?, effect.frames⟩

theorem push (effect : event.Effect sent recorded after) (frame : Frame) :
    event.Effect (sent ++ [frame]) recorded (after.push event.connection.outbox frame) where
  replicationId := effect.replicationId
  isPrimary := effect.isPrimary
  keys := effect.keys
  next := (after.outboxes.next_push _ frame).trans effect.next
  isOpen box := (after.outboxes.isOpen_push _ box frame).trans (effect.isOpen box)
  replica? := effect.replica?
  frames box opened := by
    have still := (effect.isOpen box).trans opened
    rw [Server.push, Outboxes.frames_push, effect.frames box opened]
    by_cases here : event.connection.outbox = box <;> simp [here, still]

theorem register (effect : event.Effect sent false after) :
    event.Effect sent true (after.register event.connection.name event.connection.outbox) where
  replicationId := effect.replicationId
  isPrimary := (after.isPrimary_register _ _).trans effect.isPrimary
  keys := effect.keys
  next := effect.next
  isOpen := effect.isOpen
  replica? address := by
    rw [Server.replica?_register, effect.isPrimary, effect.replica?]
    simp
  frames := effect.frames

end Effect

/-- All that an event does: its value is executed, what is sent is queued, and a client that
asked for a full copy is recorded. -/
theorem effect (event : Event) : event.Effect event.sent event.subscribes event.after := by
  have served := event.effect_serve
  unfold Event.after Connection.execute Event.sent subscribes
  cases event.connection.kind with
  | client =>
    dsimp only
    unfold Server.serveOne answer? Value.isSync
    cases asked : event.value.command with
    | error refusal =>
      rw [Server.serve_of_error _ _ asked] at served ⊢
      cases fatal : refusal.isFatal with
      | true => simpa [Piece.ofOutcome?, fatal] using served
      | false =>
        simpa [Piece.ofOutcome?, Piece.frames, Connection.client, fatal] using
          served.push (.value refusal.reply)
    | ok command =>
      rw [Server.serve_of_ok _ _ asked] at served ⊢
      cases command with
      | psync =>
        exact ((served.push (.value event.server.resyncAnnouncement)).push
          (.snapshot Snapshot.empty)).register
      | _ => exact served.push _
  | primary =>
    obtain ⟨offset, same⟩ := event.server.follow_snd event.now event.value
    have followed := served.offset offset
    rw [← same] at followed
    dsimp only
    unfold Server.followOne
    cases done : event.server.follow event.now event.value with
    | mk result later =>
    rw [done] at followed
    cases result with
    | error refusal => exact followed
    | ok outcome =>
      cases outcome with
      | reply reply => exact followed.push (.value reply)
      | _ => exact followed

theorem replica?_after {address : String} {box : OutboxId}
    (found : event.after.replica? address = some box) :
    (event.subscribes = true ∧ address = event.connection.name ∧ event.connection.outbox = box) ∨
      event.server.replica? address = some box := by
  rw [event.effect.replica?] at found
  split at found
  · rename_i subscribed
    exact .inl ⟨subscribed.1, subscribed.2.2, Option.some.inj found⟩
  · exact .inr (Option.filter_eq_some_iff.mp found).1

/-- Whether an event happened on a connection. Connections are told apart by their outboxes. -/
def isOn (event : Event) (connection : Connection) : Bool :=
  event.connection.outbox == connection.outbox

/-- Whether a connection is recorded as a replica when an event happens. -/
def feeds (event : Event) (connection : Connection) : Bool :=
  event.server.replica? connection.name == some connection.outbox

/-- What a client's connection is sent when an event happens: a copy of what is assigned, if
it is fed, and the answer, if the request is its own. -/
def pieces (event : Event) (connection : Connection) : List Piece :=
  (if event.feeds connection then (event.value.write?.map Piece.copy).toList else []) ++
    if event.isOn connection then event.answer?.toList else []

theorem pieces_of_write (event : Event) (connection : Connection) {assignment : Assignment}
    (assigned : event.value.write? = some assignment) :
    event.pieces connection = (if event.feeds connection then [.copy assignment] else []) ++
      if event.isOn connection then [.answer (.simple "OK")] else [] := by
  have answered : event.answer? = some (.answer (.simple "OK")) :=
    event.answer?_of_ok (Value.write?_eq_some_iff.mp assigned)
  rw [pieces, assigned, answered]
  rfl

/-- A piece is a copy for somebody who is fed, or answers a request of the connection. -/
theorem mem_pieces_iff {event : Event} {connection : Connection} {piece : Piece} :
    piece ∈ event.pieces connection ↔
      event.feeds connection = true ∧ (∃ assignment, event.value.write? = some assignment ∧
        .copy assignment = piece) ∨
      event.isOn connection = true ∧ event.answer? = some piece := by
  unfold pieces
  rw [List.mem_append]
  cases event.feeds connection <;> cases event.isOn connection <;> simp

theorem feeds_of_copy (event : Event) {connection : Connection} {piece : Piece}
    (inside : piece ∈ event.pieces connection) (isCopy : piece.isCopy = true) :
    event.feeds connection = true := by
  rcases mem_pieces_iff.mp inside with ⟨fed, _⟩ | ⟨_, answered⟩
  · exact fed
  · rw [Piece.isCopy_ofOutcome? answered] at isCopy
    cases isCopy

theorem own_of_quiet (event : Event) {connection : Connection} {piece : Piece}
    (quiet : event.value.write? = none) (inside : piece ∈ event.pieces connection) :
    event.isOn connection = true ∧ piece.isCopy = false := by
  rcases mem_pieces_iff.mp inside with ⟨_, assignment, assigned, _⟩ | ⟨own, answered⟩
  · rw [quiet] at assigned
    cases assigned
  · exact ⟨own, Piece.isCopy_ofOutcome? answered⟩

theorem resync_mem_pieces (event : Event) {connection : Connection}
    (own : event.isOn connection = true) (asked : event.value.isSync = true) :
    .resync event.server.resyncAnnouncement ∈ event.pieces connection :=
  mem_pieces_iff.mpr (.inr ⟨own, event.answer?_eq_resync_iff.mpr asked⟩)

/-- An event adds its pieces to the outbox of a client's connection that is recorded in one
place if it is fed, and in none if it is not. -/
theorem frames_after {connection : Connection}
    (opened : event.server.outboxes.isOpen connection.outbox = true)
    (places : event.server.places connection.outbox = if event.feeds connection then 1 else 0)
    (isClient : event.isOn connection = true → event.connection.kind = .client) :
    event.after.outboxes.frames connection.outbox =
      event.server.outboxes.frames connection.outbox ++
        (event.pieces connection).flatMap Piece.frames := by
  have copies : (event.value.write?.toList.flatMap fun assignment =>
        List.replicate (event.server.places connection.outbox) (.value assignment.toValue)) =
      (if event.feeds connection then (event.value.write?.map Piece.copy).toList else []).flatMap
        Piece.frames := by
    rw [places]
    cases event.feeds connection <;> cases event.value.write? <;> simp [Piece.frames]
  have own : (if event.connection.outbox = connection.outbox then event.sent else []) =
      (if event.isOn connection then event.answer?.toList else []).flatMap Piece.frames := by
    by_cases here : event.isOn connection = true
    · rw [if_pos (beq_iff_eq.mp here), if_pos here, Event.sent, isClient here]
    · rw [if_neg (by simpa [isOn] using here), if_neg here]
      rfl
  rw [event.effect.frames _ opened, copies, own, pieces, List.flatMap_append, List.append_assoc]

end Event

namespace Connection

/-- Whether a full copy was asked for on a connection. -/
def subscribed (connection : Connection) (history : List Event) : Bool :=
  history.any fun event => event.isOn connection && event.value.isSync

theorem subscribed_concat (connection : Connection) (history : List Event) (event : Event) :
    connection.subscribed (history ++ [event]) =
      (connection.subscribed history || event.isOn connection && event.value.isSync) := by
  simp [subscribed]

theorem subscribed_later (connection : Connection) {history : List Event} (event : Event)
    (asked : connection.subscribed history = true) :
    connection.subscribed (history ++ [event]) = true := by
  rw [subscribed_concat, asked, Bool.true_or]

theorem subscribed_here {history : List Event} {event : Event} (asked : event.value.isSync = true) :
    event.connection.subscribed (history ++ [event]) = true := by
  rw [subscribed_concat, asked, Event.isOn, beq_self_eq_true, Bool.and_true, Bool.or_true]

theorem subscribed_iff {connection : Connection} {history : List Event} :
    connection.subscribed history = true ↔
      ∃ event ∈ history, event.isOn connection = true ∧ event.value.isSync = true := by
  simp [subscribed]

end Connection

end RespKeyspace
