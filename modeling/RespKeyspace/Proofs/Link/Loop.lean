import RespKeyspace.Proofs.Feeding.WriteLog
import RespKeyspace.Proofs.Link.Acknowledged
import RespKeyspace.Proofs.Link.Upstream

/-! A replica's link and the connection that feeds it, joined in both directions. What the replica
acknowledges is a request to the primary, and what the primary answers is part of the link again. -/

namespace RespKeyspace

/-- A client's connection that is recorded as that of a replica, under its own name alone, and of
which nothing is pending. -/
structure Network.Attached (network : Network) (feed : Connection) : Prop where
  found : network.find? feed.name = some feed
  isClient : feed.kind = .client
  idle : feed.pending = some []
  recorded : network.server.replica? feed.name = some feed.outbox
  sole : ∀ address, network.server.replica? address = some feed.outbox → address = feed.name
  opened : network.server.outboxes.isOpen feed.outbox = true

theorem Network.Feeds.attached {network : Network} {subscription : Subscription}
    {writes : List Assignment} (feeds : network.Feeds subscription writes) :
    network.Attached ⟨subscription.address, .client, subscription.outbox, some []⟩ where
  found := feeds.own
  isClient := rfl
  idle := rfl
  recorded := feeds.fed.replica
  sole := feeds.fed.sole
  opened := feeds.fed.opened

/-- A primary with the connection that feeds a replica, and the replica with its link. Of what is
queued behind `skipped` frames for the one, and of what is queued for the other, so many bytes
have passed. -/
structure Loop where
  primary : Network
  replica : Network
  feed : Connection
  skipped : Nat
  delivered : Nat
  returned : Nat

namespace Loop

/-- What can happen: another client's request at the primary, a command that the primary hands on
of its own accord, and some bytes that pass in the one direction or the other. -/
inductive Step where
  | request (value : Value)
  | ping
  | askOffset
  | deliver (count : Nat)
  | answer (count : Nat)
deriving DecidableEq

def Step.fed : Step → List Value
  | .request value => (value.write?.map Assignment.toValue).toList
  | .ping => [Value.ping]
  | .askOffset => [Value.askOffset]
  | _ => []

/-- A loop as the replica begins to work off its link: all that was queued so far is behind it. -/
def start (primary : Network) (feed : Connection) (replica : Network) : Loop where
  primary
  replica := replica.step (.openPrimary Network.linkName [])
  feed
  skipped := (primary.server.outboxes.frames feed.outbox).length
  delivered := 0
  returned := 0

variable (loop : Loop)

def stream : Bytes :=
  ((loop.primary.server.outboxes.frames loop.feed.outbox).drop loop.skipped).flatMap Frame.encode

def returns : Bytes := ((loop.replica.find? Network.linkName).map loop.replica.queuedFor).getD []

/-- One step. Bytes pass in order, as many as asked for or as there are. -/
def step : Step → Loop
  | .request value =>
    { loop with primary.server := (loop.primary.server.serve loop.primary.now value).2 }
  | .ping => { loop with primary.server := loop.primary.server.propagate Value.ping }
  | .askOffset => { loop with primary.server := loop.primary.server.propagate Value.askOffset }
  | .deliver count =>
    let chunk := (loop.stream.drop loop.delivered).take count
    { loop with
      replica := loop.replica.step (.send Network.linkName chunk)
      delivered := loop.delivered + chunk.length }
  | .answer count =>
    let chunk := (loop.returns.drop loop.returned).take count
    { loop with
      primary := loop.primary.step (.send loop.feed.name chunk)
      returned := loop.returned + chunk.length }

def run (steps : List Step) : Loop := steps.foldl step loop

/-- Nothing is on its way any more. -/
def Drained : Prop :=
  loop.delivered = loop.stream.length ∧ loop.returned = loop.returns.length

instance : Decidable loop.Drained := inferInstanceAs (Decidable (_ ∧ _))

/-- A loop after a run that handed `log` on, and that has `fed` queued for the replica. -/
structure Runs (primary : Network) (feed : Connection) (replica : Network) (log fed : List Value)
    (loop : Loop) : Prop where
  feeds : loop.feed = feed
  behind : loop.skipped = (primary.server.outboxes.frames feed.outbox).length
  formed : ∀ value ∈ fed, value.WellFormed Value.maxDepth
  plain : ∀ value ∈ fed, value.Plain
  logged : fed.filter (· ≠ Value.ok) = log
  frames : loop.primary.server.outboxes.frames feed.outbox =
    primary.server.outboxes.frames feed.outbox ++ fed.map .value
  recorded : loop.primary.server.replica? feed.name = some feed.outbox
  sole : ∀ address, loop.primary.server.replica? address = some feed.outbox → address = feed.name
  opened : loop.primary.server.outboxes.isOpen feed.outbox = true
  offset : loop.primary.server.offset = primary.server.offset + Value.counted log
  found : loop.primary.find? feed.name =
    some { feed with pending := some (Value.decoded (loop.returns.take loop.returned)).rest }
  answered : fed.count Value.ok = (Value.decoded (loop.returns.take loop.returned)).values.length
  delivered : loop.delivered ≤ (fed.flatMap Value.encode).length
  returned : loop.returned ≤ loop.returns.length
  linked : loop.replica = replica.openConnection Network.linkName .primary
    ((fed.flatMap Value.encode).take loop.delivered)

namespace Runs

variable {primary replica : Network} {feed : Connection} {log fed : List Value} {loop : Loop}

theorem begin (attached : primary.Attached feed) :
    Runs primary feed replica [] [] (start primary feed replica) where
  feeds := rfl
  behind := rfl
  formed := by simp
  plain := by simp
  logged := rfl
  frames := (List.append_nil _).symm
  recorded := attached.recorded
  sole := attached.sole
  opened := attached.opened
  offset := (UInt64.add_zero _).symm
  found := by
    have pending : some (Value.decoded []).rest = feed.pending := by
      rw [attached.idle, Value.decoded_nil]
    change primary.find? feed.name = some { feed with pending := some (Value.decoded []).rest }
    rw [pending]
    exact attached.found
  answered := by
    change 0 = (Value.decoded []).values.length
    rw [Value.decoded_nil]
    rfl
  delivered := Nat.zero_le _
  returned := Nat.zero_le _
  linked := rfl

theorem stream_eq (runs : Runs primary feed replica log fed loop) :
    loop.stream = fed.flatMap Value.encode := by
  rw [stream, runs.feeds, runs.frames, runs.behind, List.drop_left, List.flatMap_map]
  rfl

private theorem hand (runs : Runs primary feed replica log fed loop) {value : Value} {after : Server}
    (done : Server.Fed value loop.primary.server after) (formed : value.WellFormed Value.maxDepth)
    (proceeds : value.isFatal = false) :
    Runs primary feed replica (log ++ [value]) (fed ++ [value])
      { loop with primary.server := after } := by
  have differ : value ≠ Value.ok := by
    rintro rfl
    cases proceeds
  have longer : (fed ++ [value]).flatMap Value.encode = fed.flatMap Value.encode ++ value.encode := by
    simp
  constructor
  case feeds => exact runs.feeds
  case behind => exact runs.behind
  case formed => exact List.forall_mem_append.mpr ⟨runs.formed, List.forall_mem_singleton.mpr formed⟩
  case plain =>
    exact List.forall_mem_append.mpr ⟨runs.plain, List.forall_mem_singleton.mpr (.inr proceeds)⟩
  case logged => rw [List.filter_append, runs.logged]; simp [differ]
  case frames =>
    have once := Server.places_of_sole runs.recorded runs.sole
    rw [done.frames, runs.frames, if_pos runs.opened, once]
    simp
  case recorded => simp [done.replica?, runs.recorded, runs.opened]
  case sole =>
    intro address found
    rw [done.replica?] at found
    exact runs.sole address (Option.filter_eq_some_iff.mp found).1
  case opened => exact (done.isOpen _).trans runs.opened
  case offset =>
    rw [done.moved ⟨_, _, runs.recorded, runs.opened⟩, runs.offset, Value.counted_append,
      UInt64.add_assoc]
    simp [Value.counted]
  case found => exact runs.found
  case answered =>
    have same : (fed ++ [value]).count Value.ok = fed.count Value.ok := by
      rw [List.count_append, List.count_singleton]
      simp [differ]
    exact same.trans runs.answered
  case delivered =>
    rw [longer, List.length_append]
    exact Nat.le_add_right_of_le runs.delivered
  case returned => exact runs.returned
  case linked =>
    rw [longer, List.take_append_of_le_length runs.delivered]
    exact runs.linked

private theorem rest (runs : Runs primary feed replica log fed loop) {after : Server}
    (done : Server.Unmoved loop.primary.server after) :
    Runs primary feed replica log fed { loop with primary.server := after } where
  feeds := runs.feeds
  behind := runs.behind
  formed := runs.formed
  plain := runs.plain
  logged := runs.logged
  frames := (done.frames _).trans runs.frames
  recorded := (done.replica? _).trans runs.recorded
  sole address found := runs.sole address ((done.replica? address).symm.trans found)
  opened := (done.isOpen _).trans runs.opened
  offset := done.offset.trans runs.offset
  found := runs.found
  answered := runs.answered
  delivered := runs.delivered
  returned := runs.returned
  linked := runs.linked

theorem returns_of_linked (follows : replica.server.role.isPrimary = false) {bytes : Bytes}
    (linked : loop.replica = replica.openConnection Network.linkName .primary bytes) :
    loop.returns = Value.acknowledged replica.server.offset bytes := by
  obtain ⟨link, found, _, queued, _⟩ := Network.openConnection_processed follows Network.linkName bytes
  rw [returns, linked, found, Option.map_some, Option.getD_some, queued]

variable (runs : Runs primary feed replica log fed loop)
  (follows : replica.server.role.isPrimary = false)

include runs follows

/-- Bytes that are delivered follow those delivered before, and what was queued for the primary
stays queued. -/
theorem deliver (count : Nat) :
    Runs primary feed replica log fed (loop.step (.deliver count)) := by
  let after := loop.step (.deliver count)
  have within : loop.delivered ≤ (fed.flatMap Value.encode).length := runs.delivered
  obtain ⟨inside, taken⟩ := Bytes.take_next within count
  rw [← runs.stream_eq] at inside taken
  have linked : after.replica = replica.openConnection Network.linkName .primary
      (loop.stream.take after.delivered) := by
    change loop.replica.send Network.linkName _ = replica.openConnection _ _
      (loop.stream.take (loop.delivered + _))
    rw [taken, runs.linked, Network.send_openConnection, runs.stream_eq]
  have kept : loop.returns <+: after.returns := by
    rw [returns_of_linked follows runs.linked, returns_of_linked follows linked, ← runs.stream_eq]
    change _ <+: Value.acknowledged _ (loop.stream.take (loop.delivered + _))
    rw [taken]
    exact Value.acknowledged_append _ _ _
  have seen : after.returns.take loop.returned = loop.returns.take loop.returned := by
    obtain ⟨more, same⟩ := kept
    rw [← same, List.take_append_of_le_length runs.returned]
  rw [runs.stream_eq] at inside linked
  exact {
    feeds := runs.feeds
    behind := runs.behind
    formed := runs.formed
    plain := runs.plain
    logged := runs.logged
    frames := runs.frames
    recorded := runs.recorded
    sole := runs.sole
    opened := runs.opened
    offset := runs.offset
    found := by
      change loop.primary.find? feed.name =
        some { feed with pending := some (Value.decoded (after.returns.take loop.returned)).rest }
      rw [seen, runs.found]
    answered := by
      change fed.count Value.ok =
        (Value.decoded (after.returns.take loop.returned)).values.length
      rw [seen, runs.answered]
    delivered := by
      change loop.delivered + ((loop.stream.drop loop.delivered).take count).length ≤ _
      rwa [runs.stream_eq]
    returned := Nat.le_trans runs.returned kept.length_le
    linked := linked }

private theorem come_back {chunk : Bytes}
    (taken : loop.returns.take (loop.returned + chunk.length) =
      loop.returns.take loop.returned ++ chunk) :
    let held := Value.decoded (loop.returns.take loop.returned)
    let next := Value.decoded (held.rest ++ chunk)
    Value.decoded (loop.returns.take (loop.returned + chunk.length)) = next.after held.values ∧
      next.fault? = none ∧ ∀ value ∈ next.values, value.command = .ok (.replconf false) := by
  intro held next
  have all := Value.decoded_append (loop.returns.take loop.returned) chunk
  have whole := List.take_append_drop (loop.returned + chunk.length) loop.returns
  have written : loop.returns.take loop.returned ++ chunk ++
      loop.returns.drop (loop.returned + chunk.length) = (Value.acknowledgements
        replica.server.offset (Value.processed (Value.decoded
          ((fed.flatMap Value.encode).take loop.delivered)).values)).flatMap Value.encode := by
    rw [← taken, whole]
    exact returns_of_linked follows runs.linked
  obtain ⟨sound, front⟩ :=
    Value.decoded_of_append Value.wellFormed_of_mem_acknowledgements written
  rw [all] at sound front
  rw [taken]
  refine ⟨all, sound, ?_⟩
  intro value member
  obtain ⟨_, rfl⟩ := Value.exists_of_mem_acknowledgements
    (front.subset (List.mem_append_right held.values member))
  exact Value.command_acknowledge _

/-- Acknowledgements that come back are answered, and the answers are queued for the replica. -/
theorem answer (isClient : feed.kind = .client) (count : Nat) :
    ∃ more, Runs primary feed replica log (fed ++ more) (loop.step (.answer count)) := by
  let chunk := (loop.returns.drop loop.returned).take count
  obtain ⟨inside, taken⟩ := Bytes.take_next runs.returned count
  obtain ⟨all, sound, each⟩ := runs.come_back follows taken
  obtain ⟨outboxes, sent, gained⟩ := Network.send_acknowledgements runs.found isClient sound each
  let next := Value.decoded ((Value.decoded (loop.returns.take loop.returned)).rest ++ chunk)
  refine ⟨List.replicate next.values.length Value.ok, ?_⟩
  have longer : (fed ++ List.replicate next.values.length Value.ok).flatMap Value.encode =
      fed.flatMap Value.encode ++ (List.replicate next.values.length Value.ok).flatMap Value.encode :=
    List.flatMap_append
  have known : ∀ value ∈ List.replicate next.values.length Value.ok, value = Value.ok := fun _ =>
    List.eq_of_mem_replicate
  have stepped : loop.step (.answer count) =
      { loop with
        primary := loop.primary.send loop.feed.name chunk
        returned := loop.returned + chunk.length } := rfl
  rw [stepped, runs.feeds, sent]
  constructor
  case feeds => rfl
  case behind => exact runs.behind
  case formed =>
    refine List.forall_mem_append.mpr ⟨runs.formed, fun value member => ?_⟩
    rw [known value member]
    exact Value.wellFormed_ok
  case plain =>
    exact List.forall_mem_append.mpr ⟨runs.plain, fun value member => .inl (known value member)⟩
  case logged =>
    rw [List.filter_append, runs.logged]
    simp
  case frames =>
    have frames := gained.frames runs.opened
    rw [runs.frames, List.append_assoc] at frames
    rw [List.map_append, List.map_replicate]
    exact frames
  case recorded => exact runs.recorded
  case sole => exact runs.sole
  case opened => exact (gained.isOpen _).trans runs.opened
  case offset => exact runs.offset
  case found =>
    have found := Network.find?_updateNamed ({ · with pending := some next.rest }) rfl runs.found
    have rest : (Value.decoded (loop.returns.take (loop.returned + chunk.length))).rest = next.rest := by
      rw [all]
      rfl
    exact found.trans (congrArg (fun rest => some { feed with pending := some rest }) rest.symm)
  case answered =>
    have counted : (fed ++ List.replicate next.values.length Value.ok).count Value.ok =
        (Value.decoded (loop.returns.take (loop.returned + chunk.length))).values.length := by
      rw [List.count_append, List.count_replicate_self, runs.answered, all,
        Value.Decoded.values_after, List.length_append]
    exact counted
  case delivered =>
    rw [longer, List.length_append]
    exact Nat.le_add_right_of_le runs.delivered
  case returned => exact inside
  case linked =>
    rw [longer, List.take_append_of_le_length runs.delivered]
    exact runs.linked

/-- Each step hands on what it should, and answers are all that can be queued besides. -/
theorem step (isClient : feed.kind = .client) (step : Step)
    (formed : ∀ value, step = .request value → value.WellFormed Value.maxDepth) :
    ∃ more, Runs primary feed replica (log ++ step.fed) (fed ++ more) (loop.step step) := by
  cases step with
  | request value =>
    rcases loop.primary.server.serve_cases loop.primary.now value with
      ⟨written, assigned, served⟩ | ⟨quiet, keys, served⟩
    · have formed := Value.wellFormed_toValue_of_write? (formed value rfl) assigned
      have proceeds : written.toValue.isFatal = false := by
        simp [Value.isFatal, written.command_toValue]
      have handed := runs.hand (loop.primary.server.fed_assign loop.primary.now written) formed proceeds
      refine ⟨[written.toValue], ?_⟩
      simpa [Loop.step, Step.fed, served, assigned] using handed
    · refine ⟨[], ?_⟩
      simpa [Loop.step, Step.fed, served, quiet] using
        runs.rest (loop.primary.server.unmoved_keys keys)
  | ping =>
    have proceeds : Value.ping.isFatal = false := by simp [Value.isFatal, Value.command_ping]
    exact ⟨[Value.ping],
      runs.hand (loop.primary.server.fed_propagate Value.ping) Value.wellFormed_ping proceeds⟩
  | askOffset =>
    have proceeds : Value.askOffset.isFatal = false := by
      simp [Value.isFatal, Value.command_askOffset]
    exact ⟨[Value.askOffset],
      runs.hand (loop.primary.server.fed_propagate Value.askOffset) Value.wellFormed_askOffset proceeds⟩
  | deliver count =>
    refine ⟨[], ?_⟩
    simpa [Step.fed] using runs.deliver follows count
  | answer count =>
    obtain ⟨more, answered⟩ := runs.answer follows isClient count
    exact ⟨more, by simpa [Step.fed] using answered⟩

theorem run (isClient : feed.kind = .client) (steps : List Step)
    (formed : ∀ value, .request value ∈ steps → value.WellFormed Value.maxDepth) :
    ∃ more, Runs primary feed replica (log ++ steps.flatMap Step.fed) (fed ++ more)
      (loop.run steps) := by
  induction steps generalizing log fed loop with
  | nil => exact ⟨[], by simpa [Loop.run] using runs⟩
  | cons step later ih =>
    obtain ⟨first, stepped⟩ := runs.step follows isClient step fun value same =>
      formed value (same ▸ List.mem_cons_self)
    obtain ⟨second, ran⟩ := ih stepped fun value member =>
      formed value (List.mem_cons_of_mem step member)
    refine ⟨first ++ second, ?_⟩
    rw [List.flatMap_cons, ← List.append_assoc, ← List.append_assoc]
    exact ran

end Runs

end Loop

end RespKeyspace
