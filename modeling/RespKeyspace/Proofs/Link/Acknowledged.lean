import RespKeyspace.Proofs.Link.Lifetime
import RespKeyspace.Proofs.Link.Position

/-! Acknowledgements on their way back. What a replica acknowledges only grows with what has come
along its link, and to the peer it is sent to it is a run of requests that are all confirmed. -/

namespace RespKeyspace

theorem Bytes.take_next {bytes : Bytes} {passed : Nat} (within : passed ≤ bytes.length) (count : Nat) :
    passed + ((bytes.drop passed).take count).length ≤ bytes.length ∧
      bytes.take (passed + ((bytes.drop passed).take count).length) =
        bytes.take passed ++ (bytes.drop passed).take count := by
  have short : ((bytes.drop passed).take count).length ≤ bytes.length - passed := by
    rw [List.length_take, List.length_drop]
    exact Nat.min_le_right _ _
  refine ⟨by omega, ?_⟩
  rw [List.take_add]
  congr 1
  rw [List.length_take]
  exact List.take_eq_take_iff.mpr (by omega)

namespace Value

/-- What a primary answers to an acknowledgement. -/
def ok : Value := .simple "OK"

def ping : Value := ofWords ["PING"]

def askOffset : Value := ofWords ["REPLCONF", "GETACK", "*"]

theorem command_ping : ping.command = .ok .ping := command_ofParts [] (by decide)

theorem command_askOffset : askOffset.command = .ok (.replconf true) :=
  command_ofParts [Bytes.ofText "GETACK", Bytes.ofText "*"] (by decide)

theorem wellFormed_ping : ping.WellFormed maxDepth := wellFormed_ofParts_iff.mpr (by decide)

theorem wellFormed_askOffset : askOffset.WellFormed maxDepth :=
  wellFormed_ofParts_iff.mpr (by decide)

theorem wellFormed_ok : ok.WellFormed maxDepth :=
  .simple (Bytes.not_lineEnd_infix_of_notMem (Bytes.carriageReturn_notMem_ofText (by decide)))

/-- Values that a link goes on behind, and answers to acknowledgements. -/
def Plain (value : Value) : Prop := value = ok ∨ value.isFatal = false

private theorem isFatal_iff_of_plain {value : Value} (plain : value.Plain) :
    value.isFatal = true ↔ value = ok := by
  constructor
  · intro fatal
    rcases plain with same | proceeds
    · exact same
    · simp [fatal] at proceeds
  · rintro rfl
    rfl

theorem processed_of_plain {values : List Value} (plain : ∀ value ∈ values, value.Plain) :
    processed values = values.takeWhile (· ≠ ok) := by
  induction values with
  | nil => rfl
  | cons value rest ih =>
    have behind := ih fun other member => plain other (List.mem_cons_of_mem value member)
    rw [processed_cons, behind]
    rcases plain value List.mem_cons_self with rfl | proceeds
    · rfl
    · have differ : value ≠ ok := by
        rintro rfl
        cases proceeds
      simp [isRequest_of_not_isFatal proceeds, proceeds, differ]

theorem proceeds_iff_of_plain {held : Decoded} (sound : held.fault? = none)
    (plain : ∀ value ∈ held.values, value.Plain) : held.Proceeds ↔ ok ∉ held.values := by
  have each : ∀ value ∈ held.values,
      (value.isRequest = true ∧ value.isUnknown = false ↔ value ≠ ok) := by
    intro value member
    rw [Ne, ← isFatal_iff_of_plain (plain value member), isFatal_eq]
    cases value.isRequest <;> cases value.isUnknown <;> simp
  unfold Decoded.Proceeds
  constructor
  · rintro ⟨_, all⟩ member
    exact (each ok member).mp (all ok member) rfl
  · intro absent
    refine ⟨sound, fun value member => (each value member).mpr ?_⟩
    rintro rfl
    exact absent member

theorem acknowledgements_append (offset : UInt64) (first second : List Value) :
    acknowledgements offset (first ++ second) =
      acknowledgements offset first ++ acknowledgements (offset + counted first) second := by
  induction first generalizing offset with
  | nil => simp [acknowledgements, counted]
  | cons value rest ih =>
    rw [List.cons_append, acknowledgements_cons, ih, acknowledgements_cons, counted,
      List.append_assoc, UInt64.add_assoc]

theorem processed_append (first second : List Value) :
    processed first <+: processed (first ++ second) := by
  induction first with
  | nil => exact List.nil_prefix
  | cons value rest ih =>
    rw [List.cons_append, processed_cons, processed_cons]
    apply (List.prefix_append_right_inj _).mpr
    cases value.isFatal with
    | true => exact List.prefix_rfl
    | false => exact ih

/-- The bytes that acknowledge what is processed of a link's bytes. -/
def acknowledged (offset : UInt64) (bytes : Bytes) : Bytes :=
  (acknowledgements offset (processed (decoded bytes).values)).flatMap encode

/-- What is acknowledged stays acknowledged. -/
theorem acknowledged_append (offset : UInt64) (bytes more : Bytes) :
    acknowledged offset bytes <+: acknowledged offset (bytes ++ more) := by
  unfold acknowledged
  rw [decoded_append, Decoded.values_after]
  obtain ⟨later, same⟩ := processed_append (decoded bytes).values
    (decoded ((decoded bytes).rest ++ more)).values
  rw [← same, acknowledgements_append, List.flatMap_append]
  exact List.prefix_append _ _

theorem command_acknowledge (offset : UInt64) :
    (acknowledge offset).command = .ok (.replconf false) :=
  command_ofParts [Bytes.ofText "ACK", Bytes.ofText (toString offset.toNat)] (by decide)

theorem wellFormed_acknowledge (offset : UInt64) : (acknowledge offset).WellFormed maxDepth := by
  have digits : (toString offset.toNat).length ≤ 20 := by
    have small := offset.toNat_lt
    exact (Nat.length_repr_le_iff (by decide)).mpr (by omega)
  have bytes := Bytes.length_ofText_le (toString offset.toNat)
  refine wellFormed_ofParts_iff.mpr ⟨by simp [maxArrayLength], ?_⟩
  intro part member
  simp only [List.map_cons, List.map_nil, List.mem_cons, List.not_mem_nil, or_false] at member
  rcases member with rfl | rfl | rfl
  · decide
  · decide
  · exact Nat.le_trans bytes (by unfold maxBulkLength; omega)

theorem exists_of_mem_acknowledgements {offset : UInt64} {values : List Value} {value : Value}
    (member : value ∈ acknowledgements offset values) : ∃ counted, value = acknowledge counted := by
  obtain ⟨offsets, same, _⟩ := exists_offsets offset values
  rw [same] at member
  obtain ⟨counted, _, rfl⟩ := List.mem_map.mp member
  exact ⟨counted, rfl⟩

theorem wellFormed_of_mem_acknowledgements {offset : UInt64} {values : List Value} :
    ∀ value ∈ acknowledgements offset values, value.WellFormed maxDepth := by
  intro value member
  obtain ⟨_, rfl⟩ := exists_of_mem_acknowledgements member
  exact wellFormed_acknowledge _

end Value

private theorem Server.runUntil_acknowledgements (now : Nat) (client : Client) {values : List Value}
    (each : ∀ value ∈ values, value.command = .ok (.replconf false)) (server : Server) :
    ∃ outboxes, runUntil (serveOne now client) values server = (true, { server with outboxes }) ∧
      Outboxes.Gains client.outbox (List.replicate values.length (.value Value.ok))
        server.outboxes outboxes := by
  induction values generalizing server with
  | nil => exact ⟨server.outboxes, rfl, .refl _ _⟩
  | cons value rest ih =>
    have served : serveOne now client value server =
        (true, { server with outboxes := server.outboxes.push client.outbox (.value Value.ok) }) := by
      rw [serveOne, serve_of_ok _ _ (each value List.mem_cons_self)]
      rfl
    obtain ⟨outboxes, ran, gained⟩ := ih (fun other member => each other (List.mem_cons_of_mem value member))
      { server with outboxes := server.outboxes.push client.outbox (.value Value.ok) }
    refine ⟨outboxes, ?_, (Outboxes.Gains.push _ _ _).append gained⟩
    rw [runUntil, served]
    exact ran

private theorem Connection.receive_acknowledgements {connection : Connection}
    (isClient : connection.kind = .client) (now : Nat) {bytes : Bytes}
    (sound : (Value.decoded bytes).fault? = none)
    (each : ∀ value ∈ (Value.decoded bytes).values, value.command = .ok (.replconf false))
    (server : Server) :
    ∃ outboxes, connection.receive now bytes server =
        (some (Value.decoded bytes).rest, { server with outboxes }) ∧
      Outboxes.Gains connection.outbox
        (List.replicate (Value.decoded bytes).values.length (.value Value.ok))
        server.outboxes outboxes := by
  obtain ⟨outboxes, ran, gained⟩ :=
    Server.runUntil_acknowledgements now connection.client each server
  refine ⟨outboxes, ?_, gained⟩
  simp [receive_eq, Server.settle, execute, isClient, ran, sound]

/-- Acknowledgements that arrive on a client's connection leave it open, and are answered. -/
theorem Network.send_acknowledgements {network : Network} {connection : Connection} {held : Bytes}
    (found : network.find? connection.name = some { connection with pending := some held })
    (isClient : connection.kind = .client) {chunk : Bytes}
    (sound : (Value.decoded (held ++ chunk)).fault? = none)
    (each : ∀ value ∈ (Value.decoded (held ++ chunk)).values,
      value.command = .ok (.replconf false)) :
    ∃ outboxes, network.send connection.name chunk =
        { network with
          server := { network.server with outboxes }
          connections := updateNamed connection.name
            ({ · with pending := some (Value.decoded (held ++ chunk)).rest }) network.connections } ∧
      Outboxes.Gains connection.outbox
        (List.replicate (Value.decoded (held ++ chunk)).values.length (.value Value.ok))
        network.server.outboxes outboxes := by
  obtain ⟨outboxes, received, gained⟩ := Connection.receive_acknowledgements
    (by exact isClient : { connection with pending := some held }.kind = .client) network.now sound
    each network.server
  refine ⟨outboxes, ?_, gained⟩
  rw [send, found]
  dsimp only
  rw [received]

theorem Network.openConnection_processed {network : Network}
    (replica : network.server.role.isPrimary = false) (name : String) (bytes : Bytes) :
    let after := network.openConnection name .primary bytes
    ∃ link, after.find? name = some link ∧
      (link.isOpen = true ↔ (Value.decoded bytes).Proceeds) ∧
      after.queuedFor link = Value.acknowledged network.server.offset bytes ∧
      Server.Processed network.now link.outbox (Value.processed (Value.decoded bytes).values)
        { network.server with outboxes := network.server.outboxes.create } after.server := by
  intro after
  obtain ⟨link, found, opened, processed, queued⟩ := openLink_processed replica name bytes []
  rw [List.flatten_nil, List.append_nil] at opened processed queued
  exact ⟨link, found, opened, queued, processed⟩

end RespKeyspace
