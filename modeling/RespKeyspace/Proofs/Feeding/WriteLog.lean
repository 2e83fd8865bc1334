import RespKeyspace.Proofs.Feeding.Steps

/-! The log of a primary: the values it hands on to its replicas. Each replica that can
be reached holds the part of the log since it was attached, one that cannot is forgotten
with the next value, and the offset counts the values that arrived anywhere. -/

namespace RespKeyspace

namespace Feeds

/-- The records kept by a primary and by the receivers of its feeds, after a history that
began with nobody attached. -/
structure Recorded (history : List Step) (feeds : Feeds) : Prop where
  isPrimary : feeds.server.role.isPrimary = true
  made : ∀ {address box}, feeds.server.replica? address = some box →
    box < feeds.server.outboxes.next
  received : ∀ {address box}, feeds.receivers.find? address = some box →
    box < feeds.server.outboxes.next
  distinct : ∀ {first second box}, feeds.receivers.find? first = some box →
    feeds.receivers.find? second = some box → first = second
  held : ∀ {address box}, feeds.server.replica? address = some box →
    feeds.server.outboxes.isOpen box = true → feeds.receivers.find? address = some box
  delivered : ∀ {address box}, feeds.server.replica? address = some box →
    ∃ before after, history = before ++ .attach address :: after ∧ .attach address ∉ after ∧
      (feeds.server.outboxes.isOpen box = true →
        feeds.server.outboxes.frames box = (log after).map .value)

namespace Recorded

variable {history : List Step} {feeds : Feeds} {address : String} {box : OutboxId}

private theorem sole (recorded : Recorded history feeds)
    (found : feeds.server.replica? address = some box)
    (opened : feeds.server.outboxes.isOpen box = true) :
    ∀ other, feeds.server.replica? other = some box → other = address := fun _ also =>
  recorded.distinct (recorded.held also opened) (recorded.held found opened)

private theorem places_eq_one (recorded : Recorded history feeds)
    (found : feeds.server.replica? address = some box)
    (opened : feeds.server.outboxes.isOpen box = true) : feeds.server.places box = 1 :=
  Server.places_of_sole found (recorded.sole found opened)

/-- A step that neither attaches an address nor reaches its frames extends what was
delivered there. -/
theorem delivered_concat (recorded : Recorded history feeds) {step : Step}
    {after : Feeds} (found : feeds.server.replica? address = some box)
    (other : step ≠ .attach address)
    (still : after.server.outboxes.isOpen box = true → feeds.server.outboxes.isOpen box = true)
    (frames : after.server.outboxes.isOpen box = true → after.server.outboxes.frames box =
      feeds.server.outboxes.frames box ++ step.fed.map .value) :
    ∃ before later, history ++ [step] = before ++ .attach address :: later ∧
      .attach address ∉ later ∧ (after.server.outboxes.isOpen box = true →
        after.server.outboxes.frames box = (log later).map .value) := by
  obtain ⟨before, later, same, absent, delivered⟩ := recorded.delivered found
  refine ⟨before, later ++ [step], by simp [same], ?_, ?_⟩
  · simp [absent, other.symm]
  · intro opened
    rw [frames opened, delivered (still opened), log_concat, List.map_append]

private theorem unmoved (recorded : Recorded history feeds) {step : Step} {after : Feeds}
    (quiet : step.fed = []) (other : ∀ address, step ≠ .attach address)
    (receivers : after.receivers = feeds.receivers)
    (unmoved : Server.Unmoved feeds.server after.server) : Recorded (history ++ [step]) after where
  isPrimary := unmoved.isPrimary.trans recorded.isPrimary
  made found := by
    rw [unmoved.replica?] at found
    simpa [unmoved.next] using recorded.made found
  received found := by
    rw [receivers] at found
    simpa [unmoved.next] using recorded.received found
  distinct first second := by
    rw [receivers] at first second
    exact recorded.distinct first second
  held found opened := by
    rw [unmoved.replica?] at found
    rw [unmoved.isOpen] at opened
    simpa [receivers] using recorded.held found opened
  delivered found := by
    rw [unmoved.replica?] at found
    refine recorded.delivered_concat found (other _) ?_ ?_
    · simp [unmoved.isOpen]
    · simp [unmoved.frames, quiet]

theorem fed (recorded : Recorded history feeds) {step : Step} {after : Feeds} {value : Value}
    (feeding : step.fed = [value]) (receivers : after.receivers = feeds.receivers)
    (fed : Server.Fed value feeds.server after.server) : Recorded (history ++ [step]) after where
  isPrimary := fed.isPrimary.trans recorded.isPrimary
  made found := by
    rw [fed.replica?, Option.filter_eq_some_iff] at found
    simpa [fed.next] using recorded.made found.1
  received found := by
    rw [receivers] at found
    simpa [fed.next] using recorded.received found
  distinct first second := by
    rw [receivers] at first second
    exact recorded.distinct first second
  held found opened := by
    rw [fed.replica?, Option.filter_eq_some_iff] at found
    simpa [receivers] using recorded.held found.1 found.2
  delivered found := by
    rw [fed.replica?, Option.filter_eq_some_iff] at found
    obtain ⟨found, opened⟩ := found
    refine recorded.delivered_concat found ?_ ?_ ?_
    · rintro rfl
      simp [Step.fed] at feeding
    · exact fun _ => opened
    · intro _
      simp [fed.frames, opened, recorded.places_eq_one found opened, feeding]

theorem attach (recorded : Recorded history feeds) (address : String) :
    Recorded (history ++ [.attach address]) (feeds.attach address) where
  isPrimary := by simpa using recorded.isPrimary
  made {other box} found := by
    rw [replica?_attach _ _ _ recorded.isPrimary] at found
    rw [next_attach]
    split at found
    · cases found
      exact Nat.lt_succ_self _
    · exact Nat.lt_succ_of_lt (recorded.made found)
  received {other box} found := by
    rw [find?_attach] at found
    rw [next_attach]
    split at found
    · cases found
      exact Nat.lt_succ_self _
    · exact Nat.lt_succ_of_lt (recorded.received found)
  distinct {first second box} one another := by
    rw [find?_attach] at one another
    split at one <;> split at another
    · rename_i same also
      exact same.trans also.symm
    · cases one
      exact absurd (recorded.received another) (Nat.lt_irrefl _)
    · cases another
      exact absurd (recorded.received one) (Nat.lt_irrefl _)
    · exact recorded.distinct one another
  held {other box} found opened := by
    rw [replica?_attach _ _ _ recorded.isPrimary] at found
    rw [find?_attach]
    split at found
    · rename_i same
      rw [if_pos same]
      exact found
    · rename_i differ
      have earlier := recorded.made found
      rw [isOpen_attach] at opened
      have still : feeds.server.outboxes.isOpen box = true := by
        rcases Bool.or_eq_true_iff.mp opened with fresh | kept
        · exact absurd (beq_iff_eq.mp fresh) (Nat.ne_of_lt earlier)
        · exact (Bool.and_eq_true_iff.mp kept).1
      rw [if_neg differ]
      exact recorded.held found still
  delivered {other box} found := by
    rw [replica?_attach _ _ _ recorded.isPrimary] at found
    split at found
    · rename_i same
      subst same
      cases found
      refine ⟨history, [], rfl, by simp, ?_⟩
      intro _
      simp [Outboxes.frames_next]
    · rename_i differ
      have earlier := recorded.made found
      refine recorded.delivered_concat found ?_ ?_ ?_
      · intro same
        cases same
        exact differ rfl
      · intro opened
        rw [isOpen_attach] at opened
        rcases Bool.or_eq_true_iff.mp opened with fresh | kept
        · exact absurd (beq_iff_eq.mp fresh) (Nat.ne_of_lt earlier)
        · exact (Bool.and_eq_true_iff.mp kept).1
      · simp [Step.fed]

theorem detach (recorded : Recorded history feeds) (address : String) :
    Recorded (history ++ [.detach address])
      { feeds with server := feeds.server.deregister address } where
  isPrimary := by simpa using recorded.isPrimary
  made found := by
    rw [Server.replica?_deregister] at found
    split at found
    · cases found
    · exact recorded.made found
  received found := recorded.received found
  distinct first second := recorded.distinct first second
  held found opened := by
    rw [Server.replica?_deregister] at found
    split at found
    · cases found
    · exact recorded.held found opened
  delivered found := by
    rw [Server.replica?_deregister] at found
    split at found
    · cases found
    · exact recorded.delivered_concat found (by simp) (fun opened => opened)
        (by simp [Step.fed, Server.deregister])

theorem hangUp (recorded : Recorded history feeds) (address : String) :
    Recorded (history ++ [.hangUp address]) (feeds.letGo address) where
  isPrimary := by simpa using recorded.isPrimary
  made found := by
    rw [replica?_letGo] at found
    simpa using recorded.made found
  received found := by
    rw [find?_letGo] at found
    split at found
    · cases found
    · simpa using recorded.received found
  distinct first second := by
    rw [find?_letGo] at first second
    split at first
    · cases first
    split at second
    · cases second
    exact recorded.distinct first second
  held {other box} found opened := by
    rw [replica?_letGo] at found
    rw [isOpen_letGo, Bool.and_eq_true_iff] at opened
    have held := recorded.held found opened.1
    rw [find?_letGo]
    split
    · rename_i same
      subst same
      simp [held] at opened
    · exact held
  delivered found := by
    rw [replica?_letGo] at found
    refine recorded.delivered_concat found (by simp) ?_ ?_
    · intro opened
      rw [isOpen_letGo, Bool.and_eq_true_iff] at opened
      exact opened.1
    · simp [Step.fed]

theorem step (recorded : Recorded history feeds) {step : Step} (here : step.isLocal = true) :
    Recorded (history ++ [step]) (feeds.step step).2 := by
  rcases feeds.step_cases here with ⟨receivers, ⟨value, feeding, fed⟩ | ⟨quiet, unmoved⟩⟩ |
    ⟨address, rfl | rfl | rfl⟩
  · exact recorded.fed feeding receivers fed
  · by_cases attaching : ∃ address, step = .attach address
    · obtain ⟨address, rfl⟩ := attaching
      exact recorded.attach address
    · exact recorded.unmoved quiet (fun address same => attaching ⟨address, same⟩) receivers unmoved
  · exact recorded.attach address
  · exact recorded.detach address
  · exact recorded.hangUp address

theorem run (recorded : Recorded history feeds) {steps : List Step}
    (here : ∀ step ∈ steps, step.isLocal = true) :
    Recorded (history ++ steps) (feeds.run steps) := by
  induction steps generalizing history feeds with
  | nil => simpa using recorded
  | cons first rest ih =>
    have later := ih (recorded.step (here first (by simp))) fun step member =>
      here step (by simp [member])
    simpa [run_cons] using later

end Recorded

/-- Nothing fed to an address arrives. -/
def Lost (feeds : Feeds) (address : String) : Prop :=
  ∀ box, feeds.server.replica? address = some box → feeds.server.outboxes.isOpen box = false

section

variable {history : List Step} {feeds : Feeds} {address : String}

private theorem lost_letGo (recorded : Recorded history feeds) :
    (feeds.letGo address).Lost address := by
  intro box found
  rw [replica?_letGo] at found
  rw [isOpen_letGo]
  cases opened : feeds.server.outboxes.isOpen box with
  | false => rfl
  | true => simp [recorded.held found opened]

/-- An address stays lost until it is attached again, and the next value fed is the
last on which it is recorded. -/
theorem lost_step (recorded : Recorded history feeds) {step : Step} (here : step.isLocal = true)
    (other : step ≠ .attach address) (lost : feeds.Lost address) :
    (feeds.step step).2.Lost address ∧
      (step.fed ≠ [] ∨ feeds.server.replica? address = none →
        (feeds.step step).2.server.replica? address = none) := by
  rcases feeds.step_cases here with ⟨_, ⟨value, feeding, fed⟩ | ⟨quiet, unmoved⟩⟩ |
    ⟨name, rfl | rfl | rfl⟩
  · have forgotten : (feeds.step step).2.server.replica? address = none := by
      rw [fed.replica?]
      apply Option.filter_eq_none_iff.mpr
      intro box found
      simp [lost box found]
    exact ⟨fun box found => by simp [forgotten] at found, fun _ => forgotten⟩
  · refine ⟨?_, ?_⟩
    · intro box found
      rw [unmoved.replica?] at found
      rw [unmoved.isOpen]
      exact lost box found
    · simp [quiet, unmoved.replica?]
  · have differ : address ≠ name := fun same => other (by rw [same])
    refine ⟨?_, ?_⟩
    · intro box found
      rw [Feeds.step, replica?_attach _ _ _ recorded.isPrimary, if_neg differ] at found
      have earlier := recorded.made found
      simp [Feeds.step, isOpen_attach, lost box found, Nat.ne_of_lt earlier]
    · simp [Step.fed, Feeds.step, replica?_attach _ _ _ recorded.isPrimary, differ]
  · refine ⟨?_, ?_⟩
    · intro box found
      simp only [Feeds.step, Server.replica?_deregister] at found
      split at found
      · cases found
      · exact lost box found
    · intro cause
      have absent := cause.resolve_left (by simp [Step.fed])
      simp [Feeds.step, absent]
  · refine ⟨?_, ?_⟩
    · intro box found
      simp only [Feeds.step, replica?_letGo] at found
      simp [Feeds.step, isOpen_letGo, lost box found]
    · simp [Step.fed, Feeds.step]

theorem lost_run (recorded : Recorded history feeds) {steps : List Step}
    (here : ∀ step ∈ steps, step.isLocal = true) (other : .attach address ∉ steps)
    (lost : feeds.Lost address) :
    log steps ≠ [] ∨ feeds.server.replica? address = none →
      (feeds.run steps).server.replica? address = none := by
  induction steps generalizing history feeds with
  | nil => simp
  | cons first rest ih =>
    have ahead : first.isLocal = true := here first (by simp)
    have differ : first ≠ .attach address := fun same => other (by simp [same])
    obtain ⟨still, forgotten⟩ := lost_step recorded ahead differ lost
    have later := ih (recorded.step ahead) (fun step member => here step (by simp [member]))
      (fun member => other (by simp [member])) still
    intro cause
    apply later
    rcases cause with fed | absent
    · by_cases quiet : first.fed = []
      · exact .inl (by simpa [log, quiet] using fed)
      · exact .inr (forgotten (.inl quiet))
    · exact .inr (forgotten (.inr absent))

theorem live_of_fed {step : Step} {box : OutboxId} (here : step.isLocal = true)
    (feeding : step.fed ≠ []) (found : feeds.server.replica? address = some box)
    (opened : feeds.server.outboxes.isOpen box = true) :
    (feeds.step step).2.server.replica? address = some box ∧
      (feeds.step step).2.server.outboxes.isOpen box = true := by
  rcases feeds.step_cases here with ⟨_, ⟨value, _, fed⟩ | ⟨quiet, _⟩⟩ | ⟨name, rfl | rfl | rfl⟩
  · rw [fed.replica?, fed.isOpen]
    exact ⟨by simp [found, opened], opened⟩
  · exact (feeding quiet).elim
  · simp [Step.fed] at feeding
  · simp [Step.fed] at feeding
  · simp [Step.fed] at feeding

end

/-- The values of a run that arrived at some replica when they were fed. -/
def arrived (feeds : Feeds) : List Step → List Value
  | [] => []
  | step :: rest =>
    (if feeds.server.HasLiveReplica then step.fed else []) ++ (feeds.step step).2.arrived rest

private theorem offset_step (feeds : Feeds) {step : Step} (here : step.isLocal = true) :
    (feeds.step step).2.server.offset = feeds.server.offset + UInt64.ofNat
      ((if feeds.server.HasLiveReplica then step.fed else []).flatMap Value.encode).length := by
  rcases feeds.step_cases here with ⟨_, ⟨value, feeding, fed⟩ | ⟨quiet, unmoved⟩⟩ |
    ⟨name, rfl | rfl | rfl⟩
  · by_cases live : feeds.server.HasLiveReplica
    · simp [fed.moved live, live, feeding, Server.frameLength]
    · simp [fed.unmoved live, live]
  · simp [unmoved.offset, quiet]
  · simp [Feeds.step, Step.fed]
  · simp [Feeds.step, Step.fed, Server.deregister]
  · simp [Feeds.step, Step.fed]

/-- The offset counts the values that arrived. -/
theorem offset_run (feeds : Feeds) {steps : List Step}
    (here : ∀ step ∈ steps, step.isLocal = true) :
    (feeds.run steps).server.offset = feeds.server.offset +
      UInt64.ofNat ((feeds.arrived steps).flatMap Value.encode).length := by
  induction steps generalizing feeds with
  | nil => simp [arrived]
  | cons first rest ih =>
    have later := ih (feeds.step first).2 fun step member => here step (by simp [member])
    rw [run_cons, later, feeds.offset_step (here first (by simp)), arrived,
      List.flatMap_append, List.length_append, UInt64.ofNat_add, UInt64.add_assoc]

def startPrimary (replicationId : String) (offset : UInt64) (keys : Keyspace)
    (outboxes : Outboxes) : Feeds :=
  start ⟨.primary .empty, replicationId, offset, keys, outboxes⟩

private theorem recorded_startPrimary (replicationId : String) (offset : UInt64) (keys : Keyspace)
    (outboxes : Outboxes) : Recorded [] (startPrimary replicationId offset keys outboxes) where
  isPrimary := rfl
  made found := by cases found
  received found := by cases found
  distinct first := by cases first
  held found := by cases found
  delivered found := by cases found

/-- After any local steps of a primary: an address that is recorded was attached, and if
its receiving end is there it holds the part of the log since its last attachment. An
address whose receiving end was taken away is recorded until the next value of the log at
most, and no value makes a primary forget one that can be reached. The offset has moved by
the lengths of the values that arrived somewhere. -/
theorem log_reaches_replicas (replicationId : String) (offset : UInt64) (keys : Keyspace)
    (outboxes : Outboxes) (steps : List Step) (here : ∀ step ∈ steps, step.isLocal = true) :
    let started := startPrimary replicationId offset keys outboxes
    let feeds := started.run steps
    (∀ address box, feeds.server.replica? address = some box →
      ∃ before after, steps = before ++ .attach address :: after ∧ .attach address ∉ after ∧
        (feeds.server.outboxes.isOpen box = true →
          feeds.server.outboxes.frames box = (log after).map .value)) ∧
    (∀ address before after, steps = before ++ .hangUp address :: after →
      .attach address ∉ after → log after ≠ [] → feeds.server.replica? address = none) ∧
    (∀ step address box, step.isLocal = true → step.fed ≠ [] →
      feeds.server.replica? address = some box → feeds.server.outboxes.isOpen box = true →
      (feeds.step step).2.server.replica? address = some box ∧
        (feeds.step step).2.server.outboxes.isOpen box = true) ∧
    feeds.server.offset =
      offset + UInt64.ofNat ((started.arrived steps).flatMap Value.encode).length := by
  intro started feeds
  have recorded : Recorded ([] ++ steps) feeds :=
    (recorded_startPrimary replicationId offset keys outboxes).run here
  refine ⟨?_, ?_, ?_, ?_⟩
  · intro address box found
    simpa using recorded.delivered found
  · rintro address before after rfl other fed
    have front : ∀ step ∈ before, step.isLocal = true := fun step member => here step (by simp [member])
    have back : ∀ step ∈ after, step.isLocal = true := fun step member => here step (by simp [member])
    have earlier := (recorded_startPrimary replicationId offset keys outboxes).run front
    have dropped := lost_run (earlier.hangUp address) back other (lost_letGo earlier) (.inl fed)
    simp only [feeds, started, run_append, run_cons]
    exact dropped
  · intro step address box local? feeding found opened
    exact live_of_fed local? feeding found opened
  · exact offset_run started here

/-- A replica that hangs up is forgotten with the next value of the log. -/
theorem forgotten_after_hangUp :
    let steps : List Step := [.attach "replica", .hangUp "replica", .propagate (.ofWords ["PING"])]
    (∀ step ∈ steps, step.isLocal = true) ∧
      ((startPrimary "id" 0 .empty .none).run steps).server.replica? "replica" = none := by
  intro steps
  have here : ∀ step ∈ steps, step.isLocal = true := by simp [steps, Step.isLocal]
  obtain ⟨_, dropped, _, _⟩ := log_reaches_replicas "id" 0 .empty .none steps here
  exact ⟨here, dropped "replica" [.attach "replica"] [.propagate (.ofWords ["PING"])] rfl (by simp)
    (by simp [log, Step.fed])⟩

end Feeds

end RespKeyspace
