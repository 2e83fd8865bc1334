import RespKeyspace.Proofs.Feeding.Effects
import RespKeyspace.Proofs.Link.Announcement
import RespKeyspace.Proofs.Reader.Arrival

/-! The greetings of a replica. A peer that answers each of them with some value, the
last one with an announcement and a snapshot, lets the handshake succeed, and what it
sends behind the snapshot is left for the link. -/

namespace RespKeyspace

namespace Greeting

def all : List Greeting := preliminaries ++ [.psync]

def bytes (port : Nat) : Bytes := (all.map (toValue port)).flatMap Value.encode

def command : Greeting → Command
  | .ping => .ping
  | .listeningPort | .capabilities => .replconf false
  | .psync => .psync

theorem command_toValue (port : Nat) (greeting : Greeting) :
    (greeting.toValue port).command = .ok greeting.command := by
  cases greeting with
  | ping => exact Value.command_ofParts [] (by decide)
  | listeningPort =>
    exact Value.command_ofParts [Bytes.ofText "listening-port", Bytes.ofText (toString port)]
      (by decide)
  | capabilities =>
    exact Value.command_ofParts [Bytes.ofText "capa", Bytes.ofText "psync2"] (by decide)
  | psync => exact Value.command_ofParts [Bytes.ofText "?", Bytes.ofText "-1"] (by decide)

theorem write?_toValue (port : Nat) (greeting : Greeting) : (greeting.toValue port).write? = none := by
  apply Value.write?_of_ok (greeting.command_toValue port)
  cases greeting <;> simp [command]

private theorem length_port_le (port : UInt16) : (Bytes.ofText (toString port.toNat)).length ≤ 20 := by
  have digits : (toString port.toNat).length ≤ 5 := by
    have small := port.toNat_lt
    exact (Nat.length_repr_le_iff (by decide)).mpr (by omega)
  have bytes := Bytes.length_ofText_le (toString port.toNat)
  omega

theorem wellFormed_toValue (port : UInt16) (greeting : Greeting) :
    (greeting.toValue port.toNat).WellFormed Value.maxDepth := by
  have short := length_port_le port
  cases greeting with
  | ping => exact Value.wellFormed_ofParts_iff.mpr (by decide)
  | listeningPort =>
    refine Value.wellFormed_ofParts_iff.mpr ⟨by simp [Value.maxArrayLength], ?_⟩
    intro part member
    simp only [List.map_cons, List.map_nil, List.mem_cons, List.not_mem_nil, or_false] at member
    rcases member with rfl | rfl | rfl
    · decide
    · decide
    · exact Nat.le_trans short (by decide)
  | capabilities => exact Value.wellFormed_ofParts_iff.mpr (by decide)
  | psync => exact Value.wellFormed_ofParts_iff.mpr (by decide)

end Greeting

namespace Wire

/-- A wire on which nothing fails that is written, and `bytes` arrive. -/
structure Delivers (wire : Wire) (bytes : Bytes) (failure : Option String) : Prop where
  writes : wire.writes = none
  flushes : wire.flushes = none
  incoming : wire.incoming.Delivers bytes failure

variable {wire : Wire} {bytes rest : Bytes} {failure : Option String}

private theorem greet_of_delivers (port : Nat) (delivers : wire.Delivers bytes failure)
    (greeting : Greeting) :
    ∃ later, wire.greet port greeting = (.ok (), later) ∧ later.Delivers bytes failure := by
  obtain ⟨incoming, writes, flushes, newestFirst⟩ := wire
  obtain ⟨rfl, rfl, arrives⟩ := delivers
  exact ⟨_, rfl, rfl, rfl, arrives⟩

private theorem expect_of_delivers {Content : Type}
    (reader : Incoming → Except ReadFault Content × Incoming)
    {content : Content} (delivers : wire.Delivers bytes failure)
    (reads : ∃ left, reader wire.incoming = (.ok content, left) ∧ left.Delivers rest failure)
    (greeting : Greeting) :
    ∃ later, wire.expect greeting reader = (.ok content, later) ∧ later.Delivers rest failure := by
  obtain ⟨left, read, arrives⟩ := reads
  simp only [expect, readWith, read]
  exact ⟨_, rfl, delivers.writes, delivers.flushes, arrives⟩

private theorem exchange_of_delivers (port : Nat) {value : Value}
    (formed : value.WellFormed Value.maxDepth)
    (delivers : wire.Delivers (value.encode ++ rest) failure) (greeting : Greeting) :
    ∃ later, wire.exchange port greeting = (.ok value, later) ∧ later.Delivers rest failure := by
  obtain ⟨sent, greeted, waiting⟩ := greet_of_delivers port delivers greeting
  unfold exchange
  rw [greeted]
  exact expect_of_delivers Incoming.readOne waiting
    (Incoming.await_of_value Value.read_stable waiting.incoming (Value.read_encode formed rest)) greeting

private theorem exchangeAll_of_delivers (port : Nat) {greetings : List Greeting} {answers : List Value}
    (answered : answers.length = greetings.length)
    (formed : ∀ answer ∈ answers, answer.WellFormed Value.maxDepth)
    (delivers : wire.Delivers (answers.flatMap Value.encode ++ rest) failure) :
    ∃ later, wire.exchangeAll port greetings = (.ok (), later) ∧ later.Delivers rest failure := by
  induction greetings generalizing wire answers with
  | nil =>
    obtain rfl := List.eq_nil_of_length_eq_zero answered
    exact ⟨wire, rfl, delivers⟩
  | cons greeting others ih =>
    cases answers with
    | nil => cases answered
    | cons answer later =>
      rw [List.flatMap_cons, List.append_assoc] at delivers
      obtain ⟨after, exchanged, waiting⟩ :=
        exchange_of_delivers port (formed answer (by simp)) delivers greeting
      rw [exchangeAll, exchanged]
      exact ih (by simpa using answered) (fun other member => formed other (by simp [member])) waiting

/-- Three answers, an announcement and a snapshot make a handshake, whatever follows. -/
theorem handshake_of_delivers (port : Nat) {answers : List Value} {announcement : Value} {payload : Bytes}
    {id : String} (answered : answers.length = Greeting.preliminaries.length)
    (formed : ∀ answer ∈ answers, answer.WellFormed Value.maxDepth)
    (last : announcement.WellFormed Value.maxDepth) (announces : announcement.announcedId? = some id)
    (short : payload.length ≤ Value.maxBulkLength)
    (delivers : wire.Delivers (answers.flatMap Value.encode ++
      (announcement.encode ++ (Snapshot.encode payload ++ rest))) failure) :
    ∃ later, wire.handshake port = (.ok (some id), later) ∧ later.Delivers rest failure := by
  obtain ⟨greeted, exchanged, waiting⟩ := exchangeAll_of_delivers port answered formed delivers
  obtain ⟨announced, asked, waiting⟩ := exchange_of_delivers port last waiting .psync
  obtain ⟨later, loaded, waiting⟩ := expect_of_delivers Incoming.readSnapshot waiting
    (Incoming.await_of_value Snapshot.read_stable waiting.incoming (Snapshot.read_encode short rest)) .psync
  simp only [handshake, exchanged, asked, announces, loaded]
  exact ⟨later, rfl, waiting⟩

end Wire

end RespKeyspace
