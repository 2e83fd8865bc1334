import RespKeyspace.Proofs.Reader.Grammar
import RespKeyspace.Proofs.Session.Routing

/-! What a read reports, said by the history alone: the content last assigned to the key, until
its lifetime is over. Which requests assign is said by their form. -/

namespace RespKeyspace

namespace Command

private theorem lifetime_eq_ok_iff {digits : Bytes} {milliseconds : Nat} :
    lifetime digits = .ok milliseconds ↔
      Decimal.Numeral digits milliseconds ∧ 1 ≤ milliseconds ∧ milliseconds ≤ Decimal.maxSigned := by
  constructor
  · intro found
    unfold lifetime at found
    split at found
    · cases found
    · rename_i number read
      split at found
      · rename_i positive
        have high := number.toInt_lt
        have numeral := Decimal.signed?_eq_some_iff.mp read
        cases found
        rw [Int.toNat_of_nonneg (Int.le_of_lt positive)]
        refine ⟨numeral, ?_, ?_⟩
        · omega
        · unfold Decimal.maxSigned
          omega
      · cases found
  · rintro ⟨numeral, positive, inRange⟩
    have same : (Int64.ofNat milliseconds).toInt = milliseconds := by
      unfold Decimal.maxSigned at inRange
      exact Int64.toInt_ofNat_of_lt (by omega)
    rw [← same] at numeral
    rw [lifetime, Decimal.signed?_eq_some_iff.mpr numeral]
    dsimp only
    rw [same, if_pos (by omega), Int.toNat_natCast]

end Command

namespace Value

/-- The requests that are accepted as a SET, each with what it assigns. -/
inductive Assigns : Value → Assignment → Prop where
  | permanent {keyword key content} (named : Request.name ⟨keyword, [key, content]⟩ = "SET") :
      Assigns (ofParts [keyword, key, content]) ⟨key, content, none⟩
  | expiring {keyword key content option digits milliseconds}
      (named : Request.name ⟨keyword, [key, content, option, digits]⟩ = "SET")
      (px : AsciiCase.same option (Bytes.ofText "PX") = true)
      (numeral : Decimal.Numeral digits (milliseconds : Nat))
      (positive : 1 ≤ milliseconds) (inRange : milliseconds ≤ Decimal.maxSigned) :
      Assigns (ofParts [keyword, key, content, option, digits]) ⟨key, content, some milliseconds⟩

/-- A request assigns what its form says, and no other request assigns anything. -/
theorem write?_eq_some_iff_assigns {value : Value} {assignment : Assignment} :
    value.write? = some assignment ↔ Assigns value assignment := by
  rw [write?_eq_some_iff, command_eq_ok_iff]
  constructor
  · rintro ⟨⟨keyword, arguments⟩, rfl, accepted⟩
    obtain ⟨named, form⟩ := Command.named_set_iff.mp accepted
    obtain ⟨key, content, lifetime⟩ := assignment
    rcases Command.assignment_eq_ok_iff.mp form with
      ⟨rfl, rfl⟩ | ⟨option, digits, milliseconds, rfl, same, read, rfl⟩
    · exact .permanent named
    · obtain ⟨numeral, positive, inRange⟩ := Command.lifetime_eq_ok_iff.mp read
      exact .expiring named same numeral positive inRange
  · rintro (⟨named⟩ | ⟨named, px, numeral, positive, inRange⟩)
    · refine ⟨⟨_, [_, _]⟩, rfl, Command.named_set_iff.mpr ⟨named, ?_⟩⟩
      exact Command.assignment_eq_ok_iff.mpr (.inl ⟨rfl, rfl⟩)
    · refine ⟨⟨_, [_, _, _, _]⟩, rfl, Command.named_set_iff.mpr ⟨named, ?_⟩⟩
      exact Command.assignment_eq_ok_iff.mpr (.inr ⟨_, _, _, rfl, px,
        Command.lifetime_eq_ok_iff.mpr ⟨numeral, positive, inRange⟩, rfl⟩)

theorem not_isExpired_of_write? {value : Value} {assignment : Assignment}
    (assigned : value.write? = some assignment) (now : Nat) :
    Entry.isExpired ⟨assignment.content, assignment.lifetime.map (now + ·)⟩ now = false := by
  cases write?_eq_some_iff_assigns.mp assigned with
  | permanent named => rfl
  | expiring named px numeral positive inRange =>
    simp only [Entry.isExpired, Option.map_some, Option.any_some, decide_eq_false_iff_not]
    omega

private theorem command_of_set {request : Request} (named : request.name = "SET") :
    (∃ assignment, request.toValue.command = .ok (.set assignment)) ∨
      ∃ refusal : Refusal, request.toValue.command = .error refusal ∧ refusal.isFatal = false := by
  rw [command_toValue, Command.ofRequest, named]
  cases form : Command.assignment request.arguments with
  | ok assignment => exact .inl ⟨assignment, by simp [Command.named, form, Except.map]⟩
  | error refusal =>
    exact .inr ⟨refusal, by simp [Command.named, form, Except.map],
      Command.not_isFatal_of_assignment form⟩

end Value

/-! The history of one key. -/

namespace Event

/-- What an event assigns, and when. -/
def assigned? (event : Event) : Option (Nat × Assignment) :=
  event.value.write?.map (event.now, ·)

/-- The last accepted SET of a key, and its time. -/
def latest? (history : List Event) (key : Bytes) : Option (Nat × Assignment) :=
  (history.filterMap assigned?).reverse.find? (·.2.key = key)

/-- What a key holds by a history: the content last assigned, if it was assigned for good or
its lifetime is not over. -/
def recalled? (history : List Event) (now : Nat) (key : Bytes) : Option Bytes :=
  match latest? history key with
  | none => none
  | some (time, assignment) =>
    match assignment.lifetime with
    | none => some assignment.content
    | some milliseconds => if now < time + milliseconds then some assignment.content else none

/-- The entry that the last accepted SET of a key makes. -/
def made? (history : List Event) (key : Bytes) : Option Entry :=
  (latest? history key).map fun (time, assignment) =>
    ⟨assignment.content, assignment.lifetime.map (time + ·)⟩

private theorem made?_concat (history : List Event) (event : Event) (key : Bytes) :
    made? (history ++ [event]) key =
      match event.value.write? with
      | some assignment =>
        if assignment.key = key then
          some ⟨assignment.content, assignment.lifetime.map (event.now + ·)⟩
        else made? history key
      | none => made? history key := by
  unfold made? latest?
  rw [List.filterMap_append, List.reverse_append, List.find?_append]
  cases assigned : event.value.write? with
  | none => simp [assigned?, assigned]
  | some assignment => by_cases same : assignment.key = key <;> simp [assigned?, assigned, same]

private theorem recalled?_eq (history : List Event) (now : Nat) (key : Bytes) :
    recalled? history now key =
      ((made? history key).filter fun entry => !entry.isExpired now).map Entry.content := by
  unfold recalled? made?
  cases latest? history key with
  | none => rfl
  | some latest =>
    obtain ⟨time, key, content, lifetime⟩ := latest
    cases lifetime with
    | none => rfl
    | some milliseconds =>
      by_cases alive : now < time + milliseconds
      · simp [Option.filter, Entry.isExpired, alive]
      · simp [Option.filter, Entry.isExpired, alive, Nat.le_of_not_lt alive]

end Event

theorem Entry.isExpired_mono {entry : Entry} {now later : Nat} (order : now ≤ later)
    (expired : entry.isExpired now = true) : entry.isExpired later = true := by
  obtain ⟨deadline, known, passed⟩ := (Option.any_eq_true _ _).mp expired
  have reached : deadline ≤ later := Nat.le_trans (of_decide_eq_true passed) order
  exact (Option.any_eq_true _ _).mpr ⟨deadline, known, decide_eq_true reached⟩

namespace Keyspace

/-- Keys that hold what a history assigned, but for what expired and was removed. -/
def Recalls (keys : Keyspace) (history : List Event) (now : Nat) : Prop :=
  ∀ key, keys.find? key = Event.made? history key ∨
    keys.find? key = none ∧ ∃ entry, Event.made? history key = some entry ∧ entry.isExpired now = true

variable {keys : Keyspace} {history : List Event} {now : Nat}

theorem Recalls.later (recalls : keys.Recalls history now) {later : Nat} (order : now ≤ later) :
    keys.Recalls history later := by
  intro key
  rcases recalls key with held | ⟨removed, entry, made, expired⟩
  · exact .inl held
  · exact .inr ⟨removed, entry, made, entry.isExpired_mono order expired⟩

theorem Recalls.get_fst (recalls : keys.Recalls history now) (key : Bytes) :
    (keys.get now key).1 = Event.recalled? history now key := by
  rw [Keyspace.get_fst, Event.recalled?_eq]
  rcases recalls key with held | ⟨removed, entry, made, expired⟩
  · rw [held]
  · -- An entry that an earlier read removed was over then, and so it is over now.
    rw [removed, made]
    simp [Option.filter, expired]

theorem Recalls.get (recalls : keys.Recalls history now) (key : Bytes) :
    (keys.get now key).2.Recalls history now := by
  intro other
  rw [find?_get]
  split
  · rename_i same
    subst same
    rcases recalls other with held | ⟨removed, made⟩
    · rw [held]
      cases Event.made? history other with
      | none => exact .inl rfl
      | some entry =>
        cases expired : entry.isExpired now with
        | true => exact .inr ⟨by simp [Option.filter, expired], entry, rfl, expired⟩
        | false => exact .inl (by simp [Option.filter, expired])
    · exact .inr ⟨by rw [removed]; rfl, made⟩
  · exact recalls other

theorem Recalls.quiet (recalls : keys.Recalls history now) {event : Event}
    (quiet : event.value.write? = none) : keys.Recalls (history ++ [event]) now := by
  intro key
  rw [Event.made?_concat, quiet]
  exact recalls key

theorem Recalls.set (recalls : keys.Recalls history now) {event : Event} {assignment : Assignment}
    (assigned : event.value.write? = some assignment) :
    (keys.set event.now assignment.key assignment.content assignment.lifetime).Recalls
      (history ++ [event]) now := by
  intro key
  rw [Event.made?_concat, assigned, find?_set]
  dsimp only
  by_cases same : assignment.key = key
  · rw [if_pos same, if_pos same.symm]
    exact .inl rfl
  · rw [if_neg same, if_neg (Ne.symm same)]
    exact recalls key

/-- Whatever an event does to the keys, they go on to hold what the history assigned. -/
theorem Recalls.apply {event : Event} (recalls : keys.Recalls history event.now) :
    (event.value.apply event.now keys).Recalls (history ++ [event]) event.now := by
  unfold Value.apply
  cases asked : event.value.command with
  | error refusal => exact recalls.quiet (Value.write?_of_error asked)
  | ok command =>
    cases command with
    | set assignment => exact recalls.set (Value.write?_eq_some_iff.mpr asked)
    | get key => exact (recalls.get key).quiet (Value.write?_of_ok asked (by simp))
    | _ => exact recalls.quiet (Value.write?_of_ok asked (by simp))

end Keyspace

namespace Network

theorem keeps_recalls : Keeps fun history network => network.server.keys.Recalls history network.now where
  connected recalls _ _ := recalls
  executed {history network} recalls event met := by
    rw [← met.server, ← met.now] at recalls
    change event.after.keys.Recalls _ network.now
    rw [event.effect.keys, ← met.now]
    exact recalls.apply
  kept recalls _ _ _ _ := recalls
  closed {history network} recalls connection _ _ := by
    change (connection.finish network.server).keys.Recalls _ _
    rw [connection.keys_finish]
    exact recalls
  advanced recalls milliseconds := recalls.later (Nat.le_add_right _ milliseconds)

end Network

namespace Event

private theorem answer?_of_set {event : Event} {request : Request}
    (same : event.value = request.toValue)
    (named : request.name = "SET") :
    (∃ assignment, event.value.write? = some assignment) ∧
        event.answer? = some (.answer (.simple "OK")) ∨
      event.value.write? = none ∧
        (∃ refusal : Refusal, event.answer? = some (.answer refusal.reply)) ∧
        (event.server.serve event.now event.value).2 = event.server := by
  have form := Value.command_of_set named
  rw [← same] at form
  rcases form with ⟨assignment, accepted⟩ | ⟨refusal, refused, answered⟩
  · exact .inl ⟨⟨assignment, Value.write?_eq_some_iff.mpr accepted⟩, event.answer?_of_ok accepted⟩
  · refine .inr ⟨Value.write?_of_error refused, ⟨refusal, ?_⟩, ?_⟩
    · rw [event.answer?_of_error refused, answered]
      rfl
    · rw [Server.serve_of_error _ _ refused]

end Event

namespace Network

/-- Whatever peers do to a server that starts without keys: what a client is sent are the
answers of the history; a GET of a key is answered with the content of the last accepted SET of
that key, if that SET had no lifetime or its lifetime is not over, and with null otherwise. A SET
is accepted if and only if its arguments have the form required, and assigns what they say; else
it is answered with an error and changes nothing. -/
theorem get_reports_last_assignment {server : Server} (grounded : server.Grounded)
    (fresh : server.keys = .empty) (steps : List Step) :
    let history := (start server).events steps
    let after := (start server).run steps
    (∀ connection ∈ after.connections, connection.kind = .client →
      after.queuedFor connection = (history.flatMap (·.pieces connection)).flatMap Piece.encode) ∧
    (∀ earlier event later, history = earlier ++ event :: later → ∀ (request : Request) key,
      event.value = request.toValue → request.name = "GET" → request.arguments = [key] →
        event.answer? = some (.answer ((Event.recalled? earlier event.now key).elim .null .bulk))) ∧
    (∀ event ∈ history, ∀ assignment,
      event.value.write? = some assignment ↔ event.value.Assigns assignment) ∧
    ∀ event ∈ history, ∀ request : Request, event.value = request.toValue → request.name = "SET" →
      (∃ assignment, event.value.write? = some assignment) ∧
          event.answer? = some (.answer (.simple "OK")) ∨
        event.value.write? = none ∧
          (∃ refusal : Refusal, event.answer? = some (.answer refusal.reply)) ∧
          (event.server.serve event.now event.value).2 = event.server := by
  intro history after
  have routed : Routed history after := .run grounded steps
  refine ⟨fun connection => routed.queuedFor_eq, ?_, fun _ _ _ => Value.write?_eq_some_iff_assigns,
    fun _ _ _ => Event.answer?_of_set⟩
  intro earlier event later whole request key same named arguments
  have recalls : (start server).server.keys.Recalls [] (start server).now := by
    intro key
    left
    simp [start, fresh, Event.made?, Event.latest?]
  obtain ⟨between, held, met⟩ := keeps_recalls.past recalls steps earlier event later whole
  rw [← met.server, ← met.now] at held
  have asked : event.value.command = .ok (.get key) := by
    rw [same, Value.command_toValue, Command.ofRequest, named, arguments]
    rfl
  rw [event.answer?_of_ok asked, ← held.get_fst]
  rfl

/-- What one client stores for ten milliseconds, another one reads after nine, and no longer
after ten. -/
theorem assignment_lasts_until_its_deadline :
    let server := Server.start (.replica ⟨"host", 6379⟩) "id"
    let get := (Value.ofWords ["get", "k"]).encode
    let steps := [.openClient "a", .openClient "b",
      .send "a" (Value.ofWords ["SET", "k", "v", "px", "+010"]).encode,
      .advance 9, .send "b" get, .advance 1, .send "b" get]
    let history := (start server).events steps
    server.Grounded ∧ server.keys = .empty ∧
      history[1]?.bind Event.answer? = some (.answer (.bulk (Bytes.ofText "v"))) ∧
      history[2]?.bind Event.answer? = some (.answer .null) := by
  intro server get steps history
  have grounded : server.Grounded := by
    intro address box found
    cases found
  obtain ⟨_, reads, _⟩ := get_reports_last_assignment grounded rfl steps
  have split : ∀ place, (inside : place < history.length) →
      history = history.take place ++ history[place] :: history.drop (place + 1) := by
    intro place inside
    rw [← List.drop_eq_getElem_cons inside, List.take_append_drop]
  have answered : ∀ place, (inside : place < history.length) →
      history[place].value = Value.ofWords ["get", "k"] →
      history[place]?.bind Event.answer? = some (.answer
        ((Event.recalled? (history.take place) history[place].now (Bytes.ofText "k")).elim .null .bulk)) := by
    intro place inside same
    rw [List.getElem?_eq_getElem inside, Option.bind_some]
    exact reads _ _ _ (split place inside) ⟨Bytes.ofText "get", [Bytes.ofText "k"]⟩ _ same (by decide) rfl
  refine ⟨grounded, rfl, (answered 1 (by decide +kernel) (by decide +kernel)).trans ?_,
    (answered 2 (by decide +kernel) (by decide +kernel)).trans ?_⟩
  · decide +kernel
  · decide +kernel

end Network

end RespKeyspace
