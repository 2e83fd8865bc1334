import RespKeyspace.Proofs.Link.Greetings
import RespKeyspace.Proofs.Reader.Await

/-! What passes on a stream by which a replica greets a peer: what was written and what was read, in
their order, as far as the greetings have come, where they fail, and where they are complete. -/

namespace RespKeyspace

namespace Value

/-- A reply that announces a snapshot: a simple string of which the first word is FULLRESYNC
in any ASCII case, and the second one the replication id. -/
def Announces (reply : Value) (id : String) : Prop :=
  ∃ text keyword more, reply = .simple text ∧ Text.words text = keyword :: id :: more ∧
    AsciiCase.same (Bytes.ofText keyword) (Bytes.ofText "FULLRESYNC") = true

theorem announcedId?_eq_some_iff {reply : Value} {id : String} :
    reply.announcedId? = some id ↔ reply.Announces id := by
  constructor
  · intro found
    unfold announcedId? at found
    split at found
    · rename_i text
      split at found
      · rename_i keyword other more words
        split at found
        · rename_i same
          cases found
          exact ⟨text, keyword, more, rfl, words, same⟩
        · cases found
      · cases found
    · cases found
  · rintro ⟨text, keyword, more, rfl, words, same⟩
    simp [announcedId?, words, same]

end Value

namespace Transfer

/-- The pieces written in a record that is held newest first, in the order of writing. -/
def pieces (record : List Transfer) : List Bytes :=
  record.reverse.filterMap fun
    | .wrote content => some content
    | .read _ => none

/-- The numbers of bytes read in a record that is held newest first, in the order of reading. -/
def counts (record : List Transfer) : List Nat :=
  record.reverse.filterMap fun
    | .wrote _ => none
    | .read count => some count

def total (record : List Transfer) : Nat := (counts record).foldr (· + ·) 0

def reads (chunks : List Bytes) : List Transfer := chunks.reverse.map (.read ·.length)

variable (record : List Transfer)

@[simp] theorem pieces_wrote (content : Bytes) :
    pieces (.wrote content :: record) = pieces record ++ [content] := by
  simp [pieces]

@[simp] theorem pieces_read (count : Nat) : pieces (.read count :: record) = pieces record := by
  simp [pieces]

@[simp] theorem counts_wrote (content : Bytes) : counts (.wrote content :: record) = counts record := by
  simp [counts]

@[simp] theorem counts_read (count : Nat) : counts (.read count :: record) = counts record ++ [count] := by
  simp [counts]

private theorem reads_concat (chunks : List Bytes) (chunk : Bytes) :
    reads (chunks ++ [chunk]) = .read chunk.length :: reads chunks := by
  simp [reads]

end Transfer

theorem Wire.written_eq (wire : Wire) : wire.written = (Transfer.pieces wire.newestFirst).flatten := by
  unfold Wire.written Transfer.pieces
  induction wire.newestFirst.reverse with
  | nil => rfl
  | cons transfer rest ih => cases transfer <;> simp [ih]

def Allowance.restore (used : Nat) (allowance : Allowance) : Allowance :=
  { allowance with left := allowance.left + used }

/-- What a replica meets when it greets its primary from a port: the chunks that arrive, the
failure of reads behind them, and how often writing and flushing succeed. -/
structure Setting where
  port : Nat
  chunks : List Bytes
  failure : Option String
  writes : Option Allowance
  flushes : Option Allowance

def Setting.wire (setting : Setting) : Wire where
  incoming := ⟨[], setting.chunks, setting.failure⟩
  writes := setting.writes
  flushes := setting.flushes

/-- The bytes received by the end of a record. -/
def Setting.received (setting : Setting) (record : List Transfer) : Bytes :=
  setting.chunks.flatten.take (Transfer.total record)

/-- A record, newest first, in which each greeting is written once all before it were answered,
and nothing is read while what is awaited, a reply or the snapshot, could be decided. -/
inductive Orderly (setting : Setting) : List Transfer → Prop where
  | start : Orderly setting []
  | greets {past greeting replies rest} (earlier : Orderly setting past)
      (sent : (Transfer.pieces past).length = replies.length)
      (held : Value.Holds (setting.received past) replies rest)
      (due : Greeting.all[replies.length]? = some greeting) :
      Orderly setting (.wrote (greeting.toValue setting.port).encode :: past)
  | awaitsReply {past replies rest count} (earlier : Orderly setting past)
      (sent : (Transfer.pieces past).length = replies.length + 1)
      (held : Value.Holds (setting.received past) replies rest)
      (undecided : Value.read rest = .incomplete) : Orderly setting (.read count :: past)
  | awaitsSnapshot {past replies reply id rest count} (earlier : Orderly setting past)
      (last : (replies ++ [reply]).length = Greeting.all.length)
      (sent : (Transfer.pieces past).length = Greeting.all.length)
      (held : Value.Holds (setting.received past) (replies ++ [reply]) rest)
      (announces : reply.Announces id)
      (undecided : Snapshot.read rest = .incomplete) : Orderly setting (.read count :: past)

/-- What is written in order is a number of greetings, the first ones. -/
theorem Orderly.pieces_eq {setting : Setting} {record : List Transfer} (orderly : Orderly setting record) :
    Transfer.pieces record = (Greeting.all.take (Transfer.pieces record).length).map fun greeting =>
      (greeting.toValue setting.port).encode := by
  induction orderly with
  | start => rfl
  | @greets past greeting replies rest earlier sent held due ih =>
    rw [sent] at ih
    rw [Transfer.pieces_wrote, List.length_append, sent, List.length_singleton, List.take_add_one, due, ih]
    simp
  | awaitsReply earlier sent held undecided ih => simpa using ih
  | awaitsSnapshot earlier last sent held announces undecided ih => simpa using ih

/-- A stream on which `sent` greetings were written and the chunks `taken` were read. -/
structure Passed (setting : Setting) (sent : Nat) (taken : List Bytes) (wire : Wire) : Prop where
  orderly : Orderly setting wire.newestFirst
  written : (Transfer.pieces wire.newestFirst).length = sent
  counts : Transfer.counts wire.newestFirst = taken.map List.length
  chunks : setting.chunks = taken ++ wire.incoming.chunks
  failure : wire.incoming.failure = setting.failure

/-- How a handshake fails: a greeting cannot be written, or not flushed, or no reply to it
comes, or the snapshot does not come that the last reply announced. -/
inductive Failed (setting : Setting) (wire : Wire) : HandshakeFault → Prop where
  | unsent {taken replies greeting reason} (passed : Passed setting replies.length taken wire)
      (held : Value.Holds taken.flatten replies wire.incoming.buffer)
      (due : Greeting.all[replies.length]? = some greeting)
      (fails : setting.writes = some ⟨replies.length, reason⟩) :
      Failed setting wire (.send greeting reason)
  | unflushed {taken replies greeting reason} (passed : Passed setting (replies.length + 1) taken wire)
      (held : Value.Holds taken.flatten replies wire.incoming.buffer)
      (due : Greeting.all[replies.length]? = some greeting)
      (fails : setting.flushes = some ⟨replies.length, reason⟩) :
      Failed setting wire (.send greeting reason)
  | unanswered {taken replies greeting fault} (passed : Passed setting (replies.length + 1) taken wire)
      (held : Value.Holds taken.flatten replies wire.incoming.buffer)
      (due : Greeting.all[replies.length]? = some greeting)
      (stalled : Incoming.Stalled Value.read .frame taken wire.incoming fault) :
      Failed setting wire (.receive greeting fault)
  | unloaded {taken replies reply id fault} (passed : Passed setting Greeting.all.length taken wire)
      (last : (replies ++ [reply]).length = Greeting.all.length)
      (held : Value.Holds taken.flatten (replies ++ [reply]) wire.incoming.buffer)
      (announces : reply.Announces id)
      (stalled : Incoming.Stalled Snapshot.read .snapshot taken wire.incoming fault) :
      Failed setting wire (.receive .psync fault)

/-- How a handshake succeeds: all that was received is the replies, the snapshot if the last
reply announces one, and what is left in the buffer. -/
inductive Completed (setting : Setting) (wire : Wire) : Option String → Prop where
  | plain {taken replies reply} (passed : Passed setting Greeting.all.length taken wire)
      (last : (replies ++ [reply]).length = Greeting.all.length)
      (held : Value.Holds taken.flatten (replies ++ [reply]) wire.incoming.buffer)
      (silent : ∀ id, ¬ reply.Announces id) : Completed setting wire none
  | loaded {taken replies reply id snapshot payload} (passed : Passed setting Greeting.all.length taken wire)
      (last : (replies ++ [reply]).length = Greeting.all.length)
      (held : Value.Holds taken.flatten (replies ++ [reply]) (snapshot ++ wire.incoming.buffer))
      (announces : reply.Announces id)
      (whole : Snapshot.read snapshot = .value payload []) : Completed setting wire (some id)

namespace Passed

variable {setting : Setting} {sent : Nat} {taken : List Bytes} {wire : Wire}

theorem received_eq {record : List Transfer} {more : List Bytes}
    (counts : Transfer.counts record = taken.map List.length) (chunks : setting.chunks = taken ++ more) :
    setting.received record = taken.flatten := by
  rw [Setting.received, Transfer.total, counts, chunks, ← List.sum_eq_foldr, ← List.length_flatten,
    List.flatten_append, List.take_left]

private theorem reads {front more : List Bytes} (passed : Passed setting sent taken wire)
    (chunks : wire.incoming.chunks = front ++ more)
    (permitted : ∀ record earlier chunk, Orderly setting record →
      (Transfer.pieces record).length = sent →
      setting.received record = taken.flatten ++ earlier.flatten → earlier ++ [chunk] <+: front →
      Orderly setting (.read chunk.length :: record)) :
    Passed setting sent (taken ++ front)
      { wire with
        incoming.chunks := more
        newestFirst := Transfer.reads front ++ wire.newestFirst } := by
  -- On the chunks from the last one on: a record grows at its front, where the last chunk is.
  induction front using List.reverseRecOn generalizing more with
  | nil =>
    rw [List.append_nil]
    exact ⟨passed.orderly, passed.written, passed.counts, passed.chunks.trans (congrArg _ chunks),
      passed.failure⟩
  | append_singleton front chunk ih =>
    rw [List.append_assoc] at chunks
    have before := ih chunks fun record earlier other orderly count received within =>
      permitted record earlier other orderly count received (within.trans (List.prefix_append front [chunk]))
    have received := received_eq before.counts before.chunks
    rw [List.flatten_append] at received
    rw [Transfer.reads_concat, List.cons_append]
    refine ⟨?_, ?_, ?_, ?_, passed.failure⟩
    · exact permitted _ front chunk before.orderly before.written received List.prefix_rfl
    · rw [Transfer.pieces_read]
      exact before.written
    · rw [Transfer.counts_read, before.counts]
      simp
    · rw [passed.chunks, chunks]
      simp

/-- Reading goes on as long as what is awaited is undecided, and takes chunks in order. -/
theorem readWith {Fault Content : Type} (examine : Bytes → Reading Fault Content)
    (blame : Fault → ReadFault) (passed : Passed setting sent taken wire)
    (permitted : ∀ record more count, Orderly setting record →
      (Transfer.pieces record).length = sent → setting.received record = taken.flatten ++ more →
      examine (wire.incoming.buffer ++ more) = .incomplete → Orderly setting (.read count :: record)) :
    ∃ more, Passed setting sent (taken ++ more) (wire.readWith (·.await examine blame)).2 ∧
      Incoming.Awaited examine blame wire.incoming more (wire.readWith (·.await examine blame)).1
        (wire.readWith (·.await examine blame)).2.incoming := by
  obtain ⟨more, awaited⟩ := wire.incoming.await_awaited examine blame
  -- The stream records as taken what is missing from its chunks afterwards.
  have front : wire.incoming.chunks.take (wire.incoming.chunks.length -
      (wire.incoming.await examine blame).2.chunks.length) = more := by
    rw [awaited.chunks]
    simp
  have recorded : (wire.readWith (·.await examine blame)).2.newestFirst =
      Transfer.reads more ++ wire.newestFirst := by
    rw [← front]
    rfl
  have read := passed.reads awaited.chunks fun record earlier chunk orderly count received within =>
    permitted record earlier.flatten chunk.length orderly count received
      (awaited.undecided earlier chunk within)
  refine ⟨more, ⟨?_, ?_, ?_, read.chunks, awaited.failure.trans passed.failure⟩, awaited⟩
  · rw [recorded]
    exact read.orderly
  · rw [recorded]
    exact read.written
  · rw [recorded]
    exact read.counts

theorem greets {replies : List Value} {greeting : Greeting} {later : Wire}
    (passed : Passed setting replies.length taken wire)
    (held : Value.Holds taken.flatten replies wire.incoming.buffer)
    (due : Greeting.all[replies.length]? = some greeting) (incoming : later.incoming = wire.incoming)
    (record : later.newestFirst = .wrote (greeting.toValue setting.port).encode :: wire.newestFirst) :
    Passed setting (replies.length + 1) taken later := by
  rw [← received_eq passed.counts passed.chunks] at held
  constructor
  · rw [record]
    exact .greets passed.orderly passed.written held due
  · rw [record, Transfer.pieces_wrote, List.length_append, passed.written, List.length_singleton]
  · rw [record, Transfer.counts_wrote, passed.counts]
  · rw [incoming, passed.chunks]
  · rw [incoming, passed.failure]

end Passed

end RespKeyspace
