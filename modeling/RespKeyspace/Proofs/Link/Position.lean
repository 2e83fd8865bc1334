import RespKeyspace.Proofs.Link.Accounting
import RespKeyspace.Proofs.Reader.Shortest

/-! How far a replica's offset is from its place in the stream of its primary. The offset
counts each value as it would be written, and a peer that pads its headers sends more. -/

namespace RespKeyspace

namespace Value

private theorem processed_initial (values : List Value) : processed values <+: values := by
  induction values with
  | nil => exact List.prefix_rfl
  | cons value rest ih =>
    rw [processed]
    split
    · split
      · exact List.cons_prefix_cons.mpr ⟨rfl, List.nil_prefix⟩
      · exact List.cons_prefix_cons.mpr ⟨rfl, ih⟩
    · exact List.nil_prefix

private theorem isRequest_of_mem_processed {values : List Value} :
    ∀ value ∈ processed values, value.isRequest = true := by
  induction values with
  | nil => simp [processed]
  | cons first rest ih =>
    rw [processed]
    split
    · rename_i request
      split
      · simpa using request
      · simpa [request] using ih
    · simp

private theorem not_occurs_null_of_isRequest {value : Value} (request : value.isRequest = true)
    (depth : Nat) :
    ¬ Occurs depth .null value := by
  obtain ⟨asked, found⟩ := Option.isSome_iff_exists.mp request
  rw [Request.ofValue?_eq_some_iff.mp found]
  exact not_occurs_null_ofParts _ depth

theorem counted_eq (values : List Value) :
    counted values = UInt64.ofNat (values.flatMap encode).length := by
  induction values with
  | nil => rfl
  | cons value rest ih =>
    rw [counted, ih, List.flatMap_cons, List.length_append, UInt64.ofNat_add]
    rfl

/-- The frames that a replica processes of a stream. -/
def processedFrames (bytes : Bytes) : List (Value × Bytes) :=
  (framed bytes).take (processed (decoded bytes).values).length

private theorem processedFrames_spec (bytes : Bytes) :
    (processedFrames bytes).map Prod.fst = processed (decoded bytes).values ∧
      (processedFrames bytes).flatMap Prod.snd <+: bytes ∧
      ∀ frame ∈ processedFrames bytes, Spelling maxDepth frame.1 frame.2 := by
  obtain ⟨values, whole, forms⟩ := framed_spec bytes
  have parts := List.take_append_drop (processed (decoded bytes).values).length (framed bytes)
  refine ⟨?_, ?_, ?_⟩
  · rw [processedFrames, List.map_take, values]
    exact (List.prefix_iff_eq_take.mp (processed_initial _)).symm
  · rw [← parts, List.flatMap_append, List.append_assoc] at whole
    exact ⟨_, whole⟩
  · intro frame member
    exact forms frame (List.mem_of_mem_take member)

/-- Frames of requests occupy no fewer bytes than the requests written, and as many only if
each of them is written so. -/
theorem length_requests_le {frames : List (Value × Bytes)}
    (forms : ∀ frame ∈ frames, Spelling maxDepth frame.1 frame.2)
    (requests : ∀ frame ∈ frames, frame.1.isRequest = true) :
    ((frames.map Prod.fst).flatMap encode).length ≤ (frames.flatMap Prod.snd).length ∧
      (((frames.map Prod.fst).flatMap encode).length = (frames.flatMap Prod.snd).length ↔
        ∀ frame ∈ frames, frame.2 = frame.1.encode) := by
  have within : ∀ frame ∈ frames, frame.1.encode.length ≤ frame.2.length := fun frame member =>
    (forms frame member).length_encode_le
  refine ⟨length_flatMap_encode_le within, ?_⟩
  rw [length_flatMap_encode_eq_iff within]
  constructor
  · intro same frame member
    exact (forms frame member).eq_encode (not_occurs_null_of_isRequest (requests frame member))
      (same frame member)
  · intro same frame member
    rw [same frame member]

private theorem length_read_request {bytes rest : Bytes} {value : Value}
    (found : read bytes = .value value rest)
    (request : value.isRequest = true) :
    value.encode.length + rest.length ≤ bytes.length ∧
      (value.encode.length + rest.length = bytes.length ↔ bytes = value.encode ++ rest) := by
  obtain ⟨form, spelled, rfl⟩ := read_eq_value_iff.mp found
  have short := spelled.length_encode_le
  rw [List.length_append]
  refine ⟨by omega, ?_⟩
  constructor
  · intro same
    rw [← spelled.eq_encode (not_occurs_null_of_isRequest request) (by omega)]
  · intro same
    rw [List.append_cancel_right same]

/-- Each request for the offset among frames is told what the frames before it take when
they are written. -/
theorem acknowledgements_frames (offset : UInt64) (frames : List (Value × Bytes)) :
    acknowledgements offset (frames.map Prod.fst) =
      frames.zipIdx.filterMap fun (frame, place) =>
        if frame.1.asksOffset then
          some (acknowledge
            (offset + UInt64.ofNat (((frames.take place).map Prod.fst).flatMap encode).length))
        else none := by
  rw [acknowledgements, List.zipIdx_map, List.filterMap_map]
  simp only [counted_eq, List.map_take]
  rfl

end Value

namespace Network

/-- The offset of a replica, and each offset that it acknowledges, moves on by what the
requests processed take when they are written. That is never beyond the place in the stream,
and it is that place exactly if every request processed so far came as it would be written. -/
theorem offset_counts_written {network : Network} (replica : network.server.role.isPrimary = false)
    (name : String) (buffer : Bytes) (sends : List Bytes) :
    let stream := buffer ++ sends.flatten
    let frames := Value.processedFrames stream
    let origin := network.server.offset
    let after := (network.step (.openPrimary name buffer)).sendAll name sends
    (∀ bytes value rest, Value.read bytes = .value value rest → value.isRequest = true →
      value.encode.length + rest.length ≤ bytes.length ∧
        (value.encode.length + rest.length = bytes.length ↔ bytes = value.encode ++ rest)) ∧
    (frames.map Prod.fst = Value.processed (Value.decoded stream).values ∧
      frames.flatMap Prod.snd <+: stream) ∧
    after.server.offset = origin + UInt64.ofNat ((frames.map Prod.fst).flatMap Value.encode).length ∧
    (∃ link, after.find? name = some link ∧
      after.queuedFor link =
        (frames.zipIdx.filterMap fun (frame, place) =>
          if frame.1.asksOffset then
            some (Value.acknowledge
              (origin + UInt64.ofNat (((frames.take place).map Prod.fst).flatMap Value.encode).length))
          else none).flatMap Value.encode) ∧
    ∀ count,
      let front := frames.take count
      ((front.map Prod.fst).flatMap Value.encode).length ≤ (front.flatMap Prod.snd).length ∧
        (((front.map Prod.fst).flatMap Value.encode).length = (front.flatMap Prod.snd).length ↔
          ∀ frame ∈ front, frame.2 = frame.1.encode) := by
  intro stream frames origin after
  obtain ⟨values, initial, forms⟩ := Value.processedFrames_spec stream
  obtain ⟨link, found, _, processed, written⟩ := openLink_processed replica name buffer sends
  have requests : ∀ frame ∈ frames, frame.1.isRequest = true := by
    intro frame member
    apply Value.isRequest_of_mem_processed
    rw [← values]
    exact List.mem_map_of_mem member
  refine ⟨fun bytes value rest => Value.length_read_request, ⟨values, initial⟩, ?_, ⟨link, found, ?_⟩, ?_⟩
  · rw [values, ← Value.counted_eq]
    exact processed.offset
  · rw [written, ← values, Value.acknowledgements_frames]
  · intro count front
    apply Value.length_requests_le
    · intro frame member
      exact forms frame (List.mem_of_mem_take member)
    · intro frame member
      exact requests frame (List.mem_of_mem_take member)

/-- Of a request with a padded header 14 bytes are counted, although it occupies 15, and so
the offset that is then acknowledged is not the place at which it was asked for. -/
theorem padded_header_counts_short :
    let padded := Bytes.ofText "*01\r\n$4\r\nPING\r\n"
    let asked := (Value.ofWords ["REPLCONF", "GETACK", "*"]).encode
    let network := start (Server.start (.replica ⟨"host", 6379⟩) "id")
    let after := network.step (.openPrimary linkName (padded ++ asked))
    Value.read padded = .value (.ofWords ["PING"]) [] ∧ padded.length = 15 ∧
      (Value.ofWords ["PING"]).encode.length = 14 ∧
      (after.find? linkName).map after.queuedFor =
        some (Value.ofWords ["REPLCONF", "ACK", "14"]).encode := by
  decide +kernel

/-- Two requests, the first one padded: the offset stays one byte behind the stream. -/
theorem padded_header_lags :
    let stream := Bytes.ofText "*01\r\n$4\r\nPING\r\n*1\r\n$4\r\nPING\r\n"
    let network := start (Server.start (.replica ⟨"host", 6379⟩) "id")
    network.server.role.isPrimary = false ∧
      (network.step (.openPrimary linkName stream)).server.offset = 28 ∧ stream.length = 29 ∧
      ((Value.processedFrames stream).flatMap Prod.snd).length = 29 := by
  intro stream network
  obtain ⟨_, _, offset, _⟩ :=
    offset_counts_written (by rfl : network.server.role.isPrimary = false) linkName stream []
  rw [List.flatten_nil, List.append_nil] at offset
  refine ⟨rfl, offset.trans ?_, ?_, ?_⟩
  · decide +kernel
  · decide +kernel
  · decide +kernel

end Network

end RespKeyspace
