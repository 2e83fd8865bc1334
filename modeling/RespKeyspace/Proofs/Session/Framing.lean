import RespKeyspace.Proofs.Reader.Grammar
import RespKeyspace.Proofs.Reader.TextBytes
import RespKeyspace.Proofs.Session.Routing

/-! Whatever clients send and in whatever order, each of them is sent whole frames: its own
answers in the order of its requests, and copies of what is assigned while it is a replica. -/

namespace RespKeyspace

namespace Bytes

theorem ofText_append (first second : String) : ofText (first ++ second) = ofText first ++ ofText second := by
  rw [ofText_eq, ofText_eq, ofText_eq, String.toList_append, List.flatMap_append]

private theorem lineEnd_infix_of_append {front back : Bytes} (absent : lineFeed ∉ back)
    (inside : lineEnd <:+: front ++ back) : lineEnd <:+: front := by
  obtain ⟨before, behind, whole⟩ := inside
  rcases List.append_eq_append_iff.mp whole with ⟨later, rfl, _⟩ | ⟨earlier, split, rfl⟩
  · exact ⟨before, later, rfl⟩
  · rcases List.eq_nil_or_concat earlier with rfl | ⟨start, last, rfl⟩
    · exact ⟨before, [], by simpa using split⟩
    · have same : before ++ [carriageReturn] ++ [lineFeed] = front ++ start ++ [last] := by
        simpa [lineEnd] using split
      obtain rfl := List.singleton_inj.mp (List.append_inj' same rfl).2
      exact absurd (by simp) absent

end Bytes

namespace Value

variable {limits : Limits} {depth : Nat}

private theorem numeral_ofNat (number : Nat) : Decimal.Numeral (Decimal.ofNat number) number :=
  .plain (Decimal.digits?_eq_some_iff.mp (Decimal.digits?_ofNat (Nat.le_refl number))).1

private theorem framed_encode_null : Framed limits depth (encode .null) .null := by
  rw [encode_null]
  exact .null (.inl rfl) (.minus (Decimal.digits?_eq_some_iff.mp (Decimal.digits?_ofNat (Nat.le_refl 1))).1)

private theorem framed_encode_bulk {content : Bytes} (short : content.length ≤ limits.bulk) :
    Framed limits depth (encode (.bulk content)) (.bulk content) := by
  rw [encode_bulk]
  exact .bulk (numeral_ofNat _) short

private theorem framed_encode_ofParts {parts : List Bytes} (few : parts.length ≤ limits.array)
    (above : depth < limits.depth) (short : ∀ part ∈ parts, part.length ≤ limits.bulk) :
    Framed limits depth (encode (ofParts parts)) (ofParts parts) := by
  let forms := parts.map fun part => (Value.bulk part, encode (.bulk part))
  have each : ∀ form ∈ forms, Framed limits (depth + 1) form.2 form.1 := by
    intro form member
    obtain ⟨part, inside, rfl⟩ := List.mem_map.mp member
    exact framed_encode_bulk (short part inside)
  have framed : Framed limits depth
      (line arrayMark (Decimal.ofNat forms.length) ++ forms.flatMap Prod.snd)
      (.array (forms.map Prod.fst)) :=
    .array (numeral_ofNat forms.length) (by simpa [forms] using few) (.inr above) each
  simpa [forms, ofParts, Function.comp_def, List.flatMap_map] using framed

end Value

namespace Frame

/-- A frame that is complete: a value in a form of the grammar, whatever limits it takes, or a
snapshot that is read back whatever follows it. -/
def Whole : Frame → Prop
  | .value content => ∃ limits, Value.Framed limits 0 content.encode content
  | .snapshot payload => ∀ rest, Snapshot.read (Snapshot.encode payload ++ rest) = .value payload rest

private theorem whole_simple {text : String} (unbroken : ¬ Bytes.lineEnd <:+: Bytes.ofText text) :
    Whole (.value (.simple text)) := by
  refine ⟨.enforced, ?_⟩
  rw [Value.encode_simple]
  exact .simple unbroken

private theorem whole_error {text : String} (unbroken : ¬ Bytes.lineEnd <:+: Bytes.ofText text) :
    Whole (.value (.error text)) := by
  refine ⟨.enforced, ?_⟩
  rw [Value.encode_error]
  exact .error unbroken

private theorem whole_bulk (content : Bytes) : Whole (.value (.bulk content)) :=
  ⟨⟨content.length, 0, 0⟩, Value.framed_encode_bulk (Nat.le_refl _)⟩

private theorem whole_copy (assignment : Assignment) : Whole (.value assignment.toValue) := by
  refine ⟨⟨3 + assignment.key.length + assignment.content.length, 3, 1⟩, ?_⟩
  apply Value.framed_encode_ofParts (Nat.le_refl _) Nat.zero_lt_one
  have keyword : (Bytes.ofText "SET").length = 3 := by decide
  simp only [List.forall_mem_cons, keyword]
  refine ⟨by omega, by omega, by omega, List.forall_mem_nil _⟩

private theorem whole_snapshot : Whole (.snapshot Snapshot.empty) :=
  fun rest => Snapshot.read_encode (by decide) rest

end Frame

private theorem Refusal.whole_reply {refusal : Refusal} (answered : refusal.isFatal = false) :
    Frame.Whole (.value refusal.reply) := by
  apply Frame.whole_error
  apply Bytes.not_lineEnd_infix_of_notMem
  apply Bytes.carriageReturn_notMem_ofText
  cases refusal with
  | notACommand => cases answered
  | unknownCommand name => cases answered
  | _ => decide

theorem Server.unbroken_resyncAnnouncement {server : Server}
    (oneLine : ¬ ['\r', '\n'] <:+: server.replicationId.toList) :
    ¬ Bytes.lineEnd <:+: Bytes.ofText ("FULLRESYNC " ++ server.replicationId ++ " 0") := by
  rw [Bytes.ofText_append, Bytes.ofText_append, List.append_assoc,
    Bytes.lineEnd_infix_append_iff (by decide)]
  intro inside
  exact oneLine ((Bytes.lineEnd_infix_ofText_iff _).mp
    (Bytes.lineEnd_infix_of_append (by decide) inside))

private theorem Server.whole_resyncAnnouncement {server : Server}
    (oneLine : ¬ ['\r', '\n'] <:+: server.replicationId.toList) :
    Frame.Whole (.value server.resyncAnnouncement) :=
  Frame.whole_simple (unbroken_resyncAnnouncement oneLine)

namespace Event

variable {event : Event} {connection : Connection}

private theorem whole_of_answer? (oneLine : ¬ ['\r', '\n'] <:+: event.server.replicationId.toList)
    {piece : Piece} (answered : event.answer? = some piece) : ∀ frame ∈ piece.frames, frame.Whole := by
  cases asked : event.value.command with
  | error refusal =>
    rw [event.answer?_of_error asked] at answered
    cases fatal : refusal.isFatal with
    | true => simp [fatal] at answered
    | false =>
      obtain rfl : .answer refusal.reply = piece := by simpa [fatal] using answered
      exact List.forall_mem_singleton.mpr (Refusal.whole_reply fatal)
  | ok command =>
    rw [event.answer?_of_ok asked] at answered
    cases command with
    | psync =>
      cases answered
      exact List.forall_mem_cons.mpr ⟨Server.whole_resyncAnnouncement oneLine,
        List.forall_mem_singleton.mpr Frame.whole_snapshot⟩
    | get key =>
      obtain rfl : .answer ((event.server.keys.get event.now key).1.elim .null .bulk) = piece :=
        Option.some.inj answered
      refine List.forall_mem_singleton.mpr ?_
      cases (event.server.keys.get event.now key).1 with
      | none => exact ⟨.enforced, Value.framed_encode_null⟩
      | some content => exact Frame.whole_bulk content
    | echo content =>
      cases answered
      exact List.forall_mem_singleton.mpr (Frame.whole_bulk content)
    | info =>
      cases answered
      exact List.forall_mem_singleton.mpr (Frame.whole_bulk _)
    | _ =>
      cases answered
      exact List.forall_mem_singleton.mpr (Frame.whole_simple (by decide))

theorem whole_of_mem_pieces (oneLine : ¬ ['\r', '\n'] <:+: event.server.replicationId.toList)
    {piece : Piece} (member : piece ∈ event.pieces connection) : ∀ frame ∈ piece.frames, frame.Whole := by
  rcases mem_pieces_iff.mp member with ⟨_, assignment, _, rfl⟩ | ⟨_, answered⟩
  · exact List.forall_mem_singleton.mpr (Frame.whole_copy assignment)
  · exact whole_of_answer? oneLine answered

private theorem answer?_eq_none_iff : event.answer? = none ↔ event.value.isFatal = true := by
  unfold Value.isFatal
  cases asked : event.value.command with
  | error refusal =>
    rw [event.answer?_of_error asked]
    cases fatal : refusal.isFatal <;> simp [fatal]
  | ok command =>
    rw [event.answer?_of_ok asked]
    cases command <;> simp [Server.perform, Piece.ofOutcome?]

variable (history : List Event) (connection)

/-- Of all that a client's connection is sent, the answers are those to its own requests. -/
theorem answers_of_pieces :
    (history.flatMap (·.pieces connection)).filter (!·.isCopy) =
      (history.filter (·.isOn connection)).filterMap answer? := by
  induction history with
  | nil => rfl
  | cons event later ih =>
    have copies : (if event.feeds connection then (event.value.write?.map Piece.copy).toList
        else []).filter (!·.isCopy) = [] := by
      cases event.feeds connection <;> cases event.value.write? <;> simp [Piece.isCopy]
    rw [List.flatMap_cons, List.filter_append, ih, pieces, List.filter_append, copies]
    cases own : event.isOn connection with
    | false => simp [own]
    | true =>
      cases answered : event.answer? with
      | none => simp [own, answered]
      | some piece => simp [own, answered, Piece.isCopy_ofOutcome? answered]

theorem copies_of_pieces :
    (history.flatMap (·.pieces connection)).filter Piece.isCopy =
      ((history.filter (·.feeds connection)).filterMap (·.value.write?)).map .copy := by
  induction history with
  | nil => rfl
  | cons event later ih =>
    have answers : (if event.isOn connection then event.answer?.toList else []).filter Piece.isCopy = [] := by
      cases event.isOn connection with
      | false => rfl
      | true =>
        cases answered : event.answer? with
        | none => rfl
        | some piece => simp [Piece.isCopy_ofOutcome? answered]
    rw [List.flatMap_cons, List.filter_append, ih, pieces, List.filter_append, answers]
    cases fed : event.feeds connection with
    | false => simp [fed]
    | true => cases assigned : event.value.write? <;> simp [fed, assigned, List.filter_cons, Piece.isCopy]

end Event

namespace Network

theorem keeps_replicationId (id : String) :
    Keeps fun history network => network.server.replicationId = id ∧
      ∀ event ∈ history, event.server.replicationId = id where
  connected same _ _ := same
  executed same event met := by
    have here : event.server.replicationId = id := met.server ▸ same.1
    exact ⟨event.effect.replicationId.trans here, List.forall_mem_append.mpr
      ⟨same.2, List.forall_mem_singleton.mpr here⟩⟩
  kept same _ _ _ _ := same
  closed same connection _ _ := by
    refine ⟨?_, same.2⟩
    unfold Connection.finish
    cases connection.kind <;> exact same.1
  advanced same _ := same

/-- Whatever peers send to a server whose replication id is one line, what a client is sent
are whole frames and nothing else: one answer to each of its own requests, in their order,
unless a request is fatal, with the snapshot right behind its announcement; and a copy of each
assignment made while it is recorded as a replica, none of them before its first announcement. -/
theorem clients_are_sent_whole_frames {server : Server} (grounded : server.Grounded)
    (oneLine : ¬ ['\r', '\n'] <:+: server.replicationId.toList) (steps : List Step) :
    let history := (start server).events steps
    let after := (start server).run steps
    ∀ connection ∈ after.connections, connection.kind = .client →
      let pieces := history.flatMap (·.pieces connection)
      after.queuedFor connection = pieces.flatMap Piece.encode ∧
      (∀ piece ∈ pieces, ∀ frame ∈ piece.frames, frame.Whole) ∧
      pieces.filter (!·.isCopy) = (history.filter (·.isOn connection)).filterMap Event.answer? ∧
      (∀ event ∈ history, (event.answer? = none ↔ event.value.isFatal = true) ∧
        (event.answer? = some (.resync event.server.resyncAnnouncement) ↔
          event.value.isSync = true)) ∧
      pieces.filter Piece.isCopy =
        ((history.filter (·.feeds connection)).filterMap (·.value.write?)).map .copy ∧
      Piece.Announced pieces := by
  intro history after connection member isClient pieces
  have routed : Routed history after := .run grounded steps
  have unchanged := ((keeps_replicationId server.replicationId).run ⟨rfl, by simp⟩ steps :
    _ ∧ ∀ event ∈ [] ++ history, _).2
  refine ⟨routed.queuedFor_eq member isClient, ?_, Event.answers_of_pieces connection history, ?_,
    Event.copies_of_pieces connection history, routed.announced connection member⟩
  · intro piece inside
    obtain ⟨event, happened, sent⟩ := List.mem_flatMap.mp inside
    have same : event.server.replicationId = server.replicationId := unchanged event happened
    exact Event.whole_of_mem_pieces (same ▸ oneLine) sent
  · exact fun event _ => ⟨event.answer?_eq_none_iff, event.answer?_eq_resync_iff⟩

/-- A client that asks for a full copy is sent it, then what another client assigns, and then
the answer to a request that is refused. -/
theorem replica_is_sent_copy_behind_snapshot :
    let server := Server.start (.primary .empty) "id"
    let steps := [.openClient "a", .openClient "b", .send "a" (Value.ofWords ["psync"]).encode,
      .send "b" (Value.ofWords ["SET", "k", "v"]).encode, .send "a" (Value.ofWords ["ECHO"]).encode]
    let connection : Connection := ⟨"a", .client, 0, some []⟩
    let sent := [.resync (.simple "FULLRESYNC id 0"),
      .copy ⟨Bytes.ofText "k", Bytes.ofText "v", none⟩, .answer Refusal.echoArity.reply]
    server.Grounded ∧ ¬ ['\r', '\n'] <:+: server.replicationId.toList ∧
      ((start server).run steps).queuedFor connection = sent.flatMap Piece.encode ∧
      ∀ piece ∈ sent, ∀ frame ∈ piece.frames, frame.Whole := by
  intro server steps connection sent
  have grounded : server.Grounded := by
    intro address box found
    cases found
  have oneLine : ¬ ['\r', '\n'] <:+: server.replicationId.toList := by decide
  have member : connection ∈ ((start server).run steps).connections := by decide +kernel
  have pieces : ((start server).events steps).flatMap (·.pieces connection) = sent := by decide +kernel
  obtain ⟨queued, whole, _⟩ := clients_are_sent_whole_frames grounded oneLine steps connection member rfl
  rw [pieces] at queued whole
  exact ⟨grounded, oneLine, queued, whole⟩

end Network

end RespKeyspace
