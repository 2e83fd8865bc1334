import Mathlib.Data.List.TakeWhile
import RespKeyspace.Proofs.Link.Loop
import RespKeyspace.Proofs.Link.Replication

/-! How a loop of acknowledgements goes on. The replica follows its primary until the first answer
to an acknowledgement comes back to it, and there its link is closed. -/

namespace RespKeyspace

namespace Value

private theorem asksOffset_askOffset :
    askOffset.asksOffset = true := asksOffset_iff.mpr command_askOffset

private theorem acknowledgements_eq_nil_iff {offset : UInt64} {values : List Value} :
    acknowledgements offset values = [] ↔ ∀ value ∈ values, value.asksOffset = false := by
  induction values generalizing offset with
  | nil => simp [acknowledgements]
  | cons value rest ih =>
    rw [acknowledgements_cons, List.append_eq_nil_iff, ih, List.forall_mem_cons]
    cases value.asksOffset <;> simp

private theorem takeWhile_prefix_filter (values : List Value) :
    values.takeWhile (· ≠ ok) <+: values.filter (· ≠ ok) := by
  induction values with
  | nil => exact List.nil_prefix
  | cons value rest ih =>
    by_cases same : value = ok
    · simp [same]
    · simpa [same] using ih

private theorem takeWhile_of_notMem {values : List Value} (absent : ok ∉ values) :
    values.takeWhile (· ≠ ok) = values := by
  refine List.takeWhile_eq_self_iff.mpr fun value member => decide_eq_true ?_
  rintro rfl
  exact absent member

private theorem takeWhile_append_answers {answers : List Value} (each : ∀ value ∈ answers, value = ok)
    (values : List Value) :
    (values ++ answers).takeWhile (· ≠ ok) = values.takeWhile (· ≠ ok) := by
  induction values with
  | nil =>
    cases answers with
    | nil => rfl
    | cons first later =>
      obtain rfl := each first List.mem_cons_self
      rfl
  | cons value rest ih =>
    by_cases same : value = ok
    · simp [same]
    · simpa [same] using ih

end Value

namespace Loop

private theorem Step.asksOffset_iff {step : Step} {value : Value} (member : value ∈ step.fed) :
    value.asksOffset = true ↔ step = .askOffset := by
  rw [Value.asksOffset_iff]
  cases step with
  | request value =>
    obtain ⟨written, _, rfl⟩ : ∃ written, value.write? = some written ∧ written.toValue = _ := by
      simpa [fed] using member
    simp [written.command_toValue]
  | ping =>
    obtain rfl := List.mem_singleton.mp member
    simp [Value.command_ping]
  | askOffset =>
    obtain rfl := List.mem_singleton.mp member
    simp [Value.command_askOffset]
  | deliver count => cases member
  | answer count => cases member

variable (loop : Loop)

def arrived : List Value := (Value.decoded (loop.stream.take loop.delivered)).values

/-- What has arrived in front of the first answer. -/
def obeyed : List Value := loop.arrived.takeWhile (· ≠ Value.ok)

namespace Runs

variable {loop : Loop} {primary replica : Network} {feed : Connection} {log fed : List Value}

section

variable (runs : Runs primary feed replica log fed loop)

include runs

private theorem arrived_sound :
    (Value.decoded (loop.stream.take loop.delivered)).fault? = none ∧ loop.arrived <+: fed := by
  have written := List.take_append_drop loop.delivered (fed.flatMap Value.encode)
  rw [arrived, runs.stream_eq]
  exact Value.decoded_of_append runs.formed written

theorem obeyed_prefix : loop.obeyed <+: log := by
  have front := Value.takeWhile_prefix_filter loop.arrived
  have all := runs.arrived_sound.2.filter (· ≠ Value.ok)
  rw [runs.logged] at all
  exact front.trans all

private theorem arrived_of_delivered (all : loop.delivered = loop.stream.length) :
    loop.arrived = fed := by
  rw [arrived, all, List.take_length, runs.stream_eq, Value.decoded_encoded runs.formed]

/-- What has arrived decides about the link, and about all that the replica does. -/
theorem link (follows : replica.server.role.isPrimary = false) :
    ∃ link, loop.replica.find? Network.linkName = some link ∧
      (link.isOpen = true ↔ Value.ok ∉ loop.arrived) ∧
      loop.returns = (Value.acknowledgements replica.server.offset loop.obeyed).flatMap Value.encode ∧
      Server.Processed replica.now link.outbox loop.obeyed
        { replica.server with outboxes := replica.server.outboxes.create } loop.replica.server := by
  obtain ⟨sound, front⟩ := runs.arrived_sound
  have plain : ∀ value ∈ loop.arrived, value.Plain := fun value member =>
    runs.plain value (front.subset member)
  have linked := runs.linked
  rw [← runs.stream_eq] at linked
  obtain ⟨link, found, opened, _, processed⟩ := Network.openConnection_processed follows
    Network.linkName (loop.stream.take loop.delivered)
  have obeyed : Value.processed loop.arrived = loop.obeyed := Value.processed_of_plain plain
  refine ⟨link, linked ▸ found, ?_, ?_, ?_⟩
  · exact opened.trans (Value.proceeds_iff_of_plain sound plain)
  · rw [returns_of_linked follows linked, ← obeyed]
    rfl
  · rw [← obeyed, linked]
    exact processed

private theorem delivered_all :
    (loop.step (.deliver loop.stream.length)).delivered = loop.stream.length := by
  have within := runs.delivered
  rw [← runs.stream_eq] at within
  change loop.delivered + ((loop.stream.drop loop.delivered).take loop.stream.length).length = _
  rw [List.length_take, List.length_drop]
  omega

private theorem returned_all :
    (loop.step (.answer loop.returns.length)).returned = loop.returns.length := by
  have within := runs.returned
  change loop.returned + ((loop.returns.drop loop.returned).take loop.returns.length).length = _
  rw [List.length_take, List.length_drop]
  omega

variable (follows : replica.server.role.isPrimary = false)

include follows

theorem unanswered (quiet : ∀ value ∈ log, value.asksOffset = false) : Value.ok ∉ fed := by
  obtain ⟨_, _, _, returns, _⟩ := runs.link follows
  have silent : Value.acknowledgements replica.server.offset loop.obeyed = [] :=
    Value.acknowledgements_eq_nil_iff.mpr fun value member =>
      quiet value (runs.obeyed_prefix.subset member)
  have answered := runs.answered
  rw [returns, silent, List.flatMap_nil, List.take_nil, Value.decoded_nil] at answered
  exact List.count_eq_zero.mp answered

/-- Where the offset is asked for, an answer to the acknowledgement arrives in the end. -/
theorem answered_of_drained (drained : loop.Drained) {value : Value} (member : value ∈ log)
    (asks : value.asksOffset = true) : Value.ok ∈ loop.arrived := by
  obtain ⟨_, _, _, returns, _⟩ := runs.link follows
  have arrived := runs.arrived_of_delivered drained.1
  by_contra absent
  have obeyed : loop.obeyed = fed := by
    rw [← arrived]
    exact Value.takeWhile_of_notMem absent
  let acknowledged := Value.acknowledgements replica.server.offset loop.obeyed
  -- The primary has read all acknowledgements, but it has answered none.
  have read : (Value.decoded (loop.returns.take loop.returned)).values = acknowledged := by
    rw [drained.2, List.take_length, returns,
      Value.decoded_encoded Value.wellFormed_of_mem_acknowledgements]
  have none : fed.count Value.ok = 0 := List.count_eq_zero.mpr (arrived ▸ absent)
  have empty : acknowledged = [] := by
    rw [← read]
    exact List.length_eq_zero_iff.mp (runs.answered.symm.trans none)
  have here : value ∈ loop.obeyed := by
    rw [obeyed]
    rw [← runs.logged] at member
    exact List.mem_of_mem_filter member
  have silent := Value.acknowledgements_eq_nil_iff.mp empty value here
  rw [asks] at silent
  cases silent

/-- Whatever is on its way can be delivered, so that nothing is on its way any more: what the replica
acknowledges is answered, and it acknowledges none of the answers. -/
theorem exists_drained (isClient : feed.kind = .client) : ∃ first second third,
    (loop.run [.deliver first, .answer second, .deliver third]).Drained := by
  let told := loop.step (.deliver loop.stream.length)
  let answered := told.step (.answer told.returns.length)
  let ended := answered.step (.deliver answered.stream.length)
  have one : Runs primary feed replica log fed told := runs.deliver follows _
  obtain ⟨more, two⟩ : ∃ more, Runs primary feed replica log (fed ++ more) answered :=
    one.answer follows isClient _
  have three : Runs primary feed replica log (fed ++ more) ended := two.deliver follows _
  have told_all : told.arrived = fed := one.arrived_of_delivered runs.delivered_all
  have ended_all : ended.arrived = fed ++ more := three.arrived_of_delivered two.delivered_all
  have answers : ∀ value ∈ more, value = Value.ok := by
    have same := two.logged
    rw [List.filter_append, runs.logged, List.append_right_eq_self, List.filter_eq_nil_iff] at same
    simpa using same
  have obeyed : ended.obeyed = told.obeyed := by
    rw [Loop.obeyed, Loop.obeyed, ended_all, told_all, Value.takeWhile_append_answers answers]
  obtain ⟨_, _, _, first, _⟩ := one.link follows
  obtain ⟨_, _, _, last, _⟩ := three.link follows
  have returns : told.returns = ended.returns := by rw [first, last, obeyed]
  exact ⟨_, _, _, two.delivered_all, one.returned_all.trans (congrArg List.length returns)⟩

end

end Runs

private theorem attached_greeted :
    ((Network.start (Server.start (.primary .empty) "id")).visit "replica"
      (Arrival.atOnce (Greeting.bytes 6380)).chunks false).Attached
        ⟨"replica", .client, 0, some []⟩ := by
  have grounded : (Network.start (Server.start (.primary .empty) "id")).Grounded := by
    apply Network.grounded_start
    intro address box found
    cases found
  exact (Network.feeds_greeted grounded rfl (by simp [Network.start]) 6380
    (.atOnce (Greeting.bytes 6380))).attached

/-- A replica that is attached to a primary, and a run in which the primary takes any requests and
asks for the offset any number of times. The primary counts all that it hands on, and answers every
acknowledgement that comes back. The replica obeys what arrives in front of the first answer, which
closes its link. So if the offset is never asked for, the link stays open, and in the end the
replica has obeyed everything; and if it is, the link is closed in the end. -/
theorem follows_until_answered {primary replica : Network} {feed : Connection}
    (attached : primary.Attached feed) (follows : replica.server.role.isPrimary = false)
    (steps : List Step)
    (formed : ∀ value, .request value ∈ steps → value.WellFormed Value.maxDepth) :
    let loop := (start primary feed replica).run steps
    let log := steps.flatMap Step.fed
    (∃ fed, loop.primary.server.outboxes.frames feed.outbox =
        primary.server.outboxes.frames feed.outbox ++ fed.map .value ∧
      fed.filter (· ≠ Value.ok) = log ∧ loop.arrived <+: fed ∧
      fed.count Value.ok = (Value.decoded (loop.returns.take loop.returned)).values.length) ∧
    loop.primary.server.offset = primary.server.offset + Value.counted log ∧
    loop.primary.server.replica? feed.name = some feed.outbox ∧
    (∃ held, loop.primary.find? feed.name = some { feed with pending := some held }) ∧
    loop.obeyed <+: log ∧
    loop.replica.server.offset = replica.server.offset + Value.counted loop.obeyed ∧
    loop.replica.server.keys =
      loop.obeyed.foldl (fun keys value => value.apply replica.now keys) replica.server.keys ∧
    loop.returns = (Value.acknowledgements replica.server.offset loop.obeyed).flatMap Value.encode ∧
    (∃ first second third, (loop.run [.deliver first, .answer second, .deliver third]).Drained) ∧
    ∃ link, loop.replica.find? Network.linkName = some link ∧
      (link.isOpen = true ↔ Value.ok ∉ loop.arrived) ∧
      (.askOffset ∉ steps → link.isOpen = true ∧ (loop.Drained → loop.obeyed = log)) ∧
      (.askOffset ∈ steps → loop.Drained → link.isOpen = false) := by
  intro loop log
  obtain ⟨fed, runs⟩ := (Runs.begin attached).run follows attached.isClient steps formed
  rw [List.nil_append, List.nil_append] at runs
  obtain ⟨link, found, opened, returns, processed⟩ := runs.link follows
  refine ⟨⟨fed, runs.frames, runs.logged, runs.arrived_sound.2, runs.answered⟩, runs.offset,
    runs.recorded, ⟨_, runs.found⟩, runs.obeyed_prefix, processed.offset, processed.keys, returns,
    runs.exists_drained follows attached.isClient, link, found, opened, ?_, ?_⟩
  · intro never
    have quiet : ∀ value ∈ log, value.asksOffset = false := by
      intro value member
      obtain ⟨step, inside, handed⟩ := List.mem_flatMap.mp member
      rw [Bool.eq_false_iff, Ne, Step.asksOffset_iff handed]
      rintro rfl
      exact never inside
    have absent := runs.unanswered follows quiet
    refine ⟨opened.mpr fun member => absent (runs.arrived_sound.2.subset member), ?_⟩
    intro drained
    have all : fed.filter (· ≠ Value.ok) = fed := by
      refine List.filter_eq_self.mpr fun value member => decide_eq_true ?_
      rintro rfl
      exact absent member
    rw [obeyed, runs.arrived_of_delivered drained.1, Value.takeWhile_of_notMem absent, ← all]
    exact runs.logged
  · intro once drained
    have member : Value.askOffset ∈ log :=
      List.mem_flatMap.mpr ⟨.askOffset, once, List.mem_singleton.mpr rfl⟩
    have answered := runs.answered_of_drained follows drained member Value.asksOffset_askOffset
    rw [Bool.eq_false_iff, Ne, opened]
    exact not_not_intro answered

/-- A replica whose primary never asks it for its offset has in the end what a client assigned. -/
theorem unasked_replica_holds_write :
    let primary := (Network.start (Server.start (.primary .empty) "id")).visit "replica"
      (Arrival.atOnce (Greeting.bytes 6380)).chunks false
    let replica := Network.start (Server.start (.replica ⟨"localhost", 6379⟩) "other")
    let steps := [.ping, .deliver 3, .request (Value.ofWords ["SET", "k", "v"]), .answer 1, .deliver 99]
    let loop := (start primary ⟨"replica", .client, 0, some []⟩ replica).run steps
    loop.Drained ∧ loop.replica.server.offset = 41 ∧ loop.primary.server.offset = 41 ∧
      loop.replica.server.keys.find? (Bytes.ofText "k") = some ⟨Bytes.ofText "v", none⟩ ∧
      ∃ link, loop.replica.find? Network.linkName = some link ∧ link.isOpen = true := by
  intro primary replica steps loop
  have formed : ∀ value, Step.request value ∈ steps → value.WellFormed Value.maxDepth := by
    intro value member
    obtain rfl : value = Value.ofWords ["SET", "k", "v"] := by simpa [steps] using member
    exact Value.wellFormed_ofParts_iff.mpr (by decide)
  obtain ⟨_, _, _, _, _, _, _, _, _, link, found, _, never, _⟩ := follows_until_answered
    attached_greeted (by rfl : replica.server.role.isPrimary = false) steps formed
  obtain ⟨opened, _⟩ := never (by decide)
  have ended : loop.Drained ∧ loop.replica.server.offset = 41 ∧ loop.primary.server.offset = 41 ∧
      loop.replica.server.keys.find? (Bytes.ofText "k") = some ⟨Bytes.ofText "v", none⟩ := by
    decide +kernel
  obtain ⟨drained, reached, sent, held⟩ := ended
  exact ⟨drained, reached, sent, held, link, found, opened⟩

/-- A replica that is asked for its offset once: the answer to its acknowledgement is 5 bytes that
are no request, and what a client assigns behind it is lost. -/
theorem asked_replica_misses_write :
    let primary := (Network.start (Server.start (.primary .empty) "id")).visit "replica"
      (Arrival.atOnce (Greeting.bytes 6380)).chunks false
    let replica := Network.start (Server.start (.replica ⟨"localhost", 6379⟩) "other")
    let steps := [.askOffset, .deliver 99, .answer 99, .request (Value.ofWords ["SET", "k", "v"]),
      .deliver 99]
    let loop := (start primary ⟨"replica", .client, 0, some []⟩ replica).run steps
    primary.Attached ⟨"replica", .client, 0, some []⟩ ∧ replica.server.role.isPrimary = false ∧
      loop.Drained ∧ loop.primary.server.offset = 64 ∧ loop.replica.server.offset = 37 ∧
      loop.primary.server.keys.find? (Bytes.ofText "k") = some ⟨Bytes.ofText "v", none⟩ ∧
      loop.replica.server.keys.find? (Bytes.ofText "k") = none ∧
      (loop.replica.find? Network.linkName).map Connection.isOpen = some false :=
  ⟨attached_greeted, rfl, by decide +kernel⟩

end Loop

end RespKeyspace
