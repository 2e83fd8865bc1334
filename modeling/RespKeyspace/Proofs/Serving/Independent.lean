import RespKeyspace.Proofs.Serving.Merging

/-! Requests of two clients in any order that keeps each client's own. If they name no key in
common, the order between the clients makes no difference to either of them, and none to the server. -/

namespace RespKeyspace

namespace Server

variable {left right : Server} {own : Bytes → Prop}

/-- Servers that hold the same for some of the keys, and announce the same replication id. -/
structure AgreeOn (own : Bytes → Prop) (left right : Server) : Prop where
  replicationId : left.replicationId = right.replicationId
  find? : ∀ key, own key → left.keys.find? key = right.keys.find? key

theorem AgreeOn.refl (own : Bytes → Prop) (server : Server) : AgreeOn own server server :=
  ⟨rfl, fun _ _ => rfl⟩

/-- A request about own keys has the same result at servers that agree on these, but for the
report, which tells of all writes. -/
theorem AgreeOn.serve (agree : AgreeOn own left right) (now : Nat) {value : Value}
    (named : ∀ key, value.key? = some key → own key) (other : value.command ≠ .ok .info) :
    (right.serve now value).1 = (left.serve now value).1 ∧
      AgreeOn own (left.serve now value).2 (right.serve now value).2 := by
  refine ⟨?_, ?_, ?_⟩
  · cases asked : value.command with
    | error refusal => rw [serve_of_error _ _ asked, serve_of_error _ _ asked]
    | ok command =>
      rw [serve_of_ok _ _ asked, serve_of_ok _ _ asked]
      cases command with
      | info => exact (other asked).elim
      | get key =>
        have here := agree.find? key (named key (by simp [Value.key?, asked]))
        simp [perform, Keyspace.get_fst, here]
      | psync => simp [perform, resyncAnnouncement, agree.replicationId]
      | _ => rfl
  · rw [(left.wrote_serve now value).replicationId, (right.wrote_serve now value).replicationId,
      agree.replicationId]
  · intro key mine
    rw [keys_serve, keys_serve]
    exact Keyspace.find?_apply_congr value now (agree.find? key mine)

private theorem AgreeOn.serve_left (agree : AgreeOn own left right) (now : Nat) {value : Value}
    (foreign : ∀ key, own key → value.key? ≠ some key) :
    AgreeOn own (left.serve now value).2 right where
  replicationId := (left.wrote_serve now value).replicationId.trans agree.replicationId
  find? key mine := by
    rw [keys_serve, Keyspace.find?_apply_of_ne now (foreign key mine), agree.find? key mine]

section

variable {Label : Type}

/-- A turn that names own keys if it is kept, and none of them if it is left out. -/
structure Divided (own : Bytes → Prop) (keep : Label → Bool) (turn : Turn Label) : Prop where
  plain : turn.value.command ≠ .ok .info
  kept : keep turn.label = true → ∀ key, turn.value.key? = some key → own key
  out : keep turn.label = false → ∀ key, own key → turn.value.key? ≠ some key

/-- Turns about other keys can be left out: the others have the same results, and the servers go
on to agree. -/
theorem AgreeOn.serveAll (agree : AgreeOn own left right) (keep : Label → Bool)
    {turns : List (Turn Label)} (divided : ∀ turn ∈ turns, Divided own keep turn) :
    (right.serveAll (turns.filter (keep ·.label))).1 = (left.serveAll turns).1.filter (keep ·.1) ∧
      AgreeOn own (left.serveAll turns).2 (right.serveAll (turns.filter (keep ·.label))).2 := by
  obtain ⟨results, agree, _⟩ := serveAll_filter
    (fun rest left right => AgreeOn own left right ∧ ∀ turn ∈ rest, Divided own keep turn) keep
    (fun turn rest left right ⟨agree, divided⟩ kept => by
      have here := divided turn List.mem_cons_self
      obtain ⟨same, behind⟩ := agree.serve turn.now (here.kept kept) here.plain
      exact ⟨same, behind, fun other member => divided other (List.mem_cons_of_mem turn member)⟩)
    (fun turn rest left right ⟨agree, divided⟩ out => by
      have here := divided turn List.mem_cons_self
      refine ⟨agree.serve_left turn.now (here.out out), ?_⟩
      exact fun other member => divided other (List.mem_cons_of_mem turn member))
    ⟨agree, divided⟩
  exact ⟨results, agree⟩

private theorem current_serveAll {now : Nat} {turns : List (Turn Label)}
    (together : ∀ turn ∈ turns, turn.now = now) (server : Server) {done : List Assignment}
    (current : server.keys.Current now done) :
    (server.serveAll turns).2.keys.Current now (done ++ turns.filterMap (·.value.write?)) := by
  induction turns generalizing server done with
  | nil => simpa [serveAll] using current
  | cons turn rest ih =>
    have here := together turn List.mem_cons_self
    have after := current.apply turn.value
    rw [← keys_serve] at after
    have behind := ih (fun other member => together other (List.mem_cons_of_mem turn member)) _ after
    rw [serveAll_cons, here, List.filterMap_cons]
    cases assigned : turn.value.write? with
    | none => simpa [assigned] using behind
    | some assignment => simpa [assigned] using behind

end

def turns (now : Nat) (merged : List (Side × Value)) : List (Turn Side) :=
  merged.map fun (side, value) => ⟨side, now, value⟩

variable (server : Server) (now : Nat)

private theorem writes_turns (merged : List (Side × Value)) :
    (turns now merged).filterMap (·.value.write?) = (merged.map Prod.snd).filterMap Value.write? := by
  simp [turns, List.filterMap_map]

private theorem filter_turns (side : Side) (merged : List (Side × Value)) :
    (turns now merged).filter (·.label = side) = turns now ((side.part merged).map (side, ·)) := by
  unfold turns Side.part
  rw [List.filter_map, List.map_map, List.map_map]
  apply List.map_congr_left
  intro item member
  have same := of_decide_eq_true (List.mem_filter.mp member).2
  rw [← same]
  rfl

/-- Each client is answered as if it were alone, and the keys that the other one does not name
end up the same. -/
theorem serveAll_part (side : Side) (merged : List (Side × Value))
    (plain : ∀ value ∈ merged.map Prod.snd, value.command ≠ .ok .info)
    (apart : Value.Apart (side.part merged) (side.other.part merged)) :
    (server.serveAll (turns now ((side.part merged).map (side, ·)))).1 =
        (server.serveAll (turns now merged)).1.filter (·.1 = side) ∧
      AgreeOn (fun key => ∀ value ∈ side.other.part merged, value.key? ≠ some key)
        (server.serveAll (turns now merged)).2
        (server.serveAll (turns now ((side.part merged).map (side, ·)))).2 := by
  rw [← filter_turns]
  refine (AgreeOn.refl _ server).serveAll (fun label => decide (label = side)) ?_
  intro turn member
  obtain ⟨⟨owner, value⟩, inside, rfl⟩ := List.mem_map.mp member
  refine ⟨plain value (List.mem_map_of_mem inside), ?_, ?_⟩
  · intro kept key named other theirs
    obtain rfl : owner = side := of_decide_eq_true kept
    exact apart value (Side.mem_part_iff.mpr inside) other theirs key named
  · intro out key mine
    have owned : owner = side.other := by
      have differ : owner ≠ side := of_decide_eq_false out
      cases owner <;> cases side <;> first | rfl | exact (differ rfl).elim
    subst owned
    exact mine value (Side.mem_part_iff.mpr inside)

variable {left right : List Value} {merged : List (Side × Value)}

theorem serveAll_left (merges : Side.Merges left right merged)
    (plain : ∀ value ∈ left ++ right, value.command ≠ .ok .info) (apart : Value.Apart left right) :
    (server.serveAll (turns now (left.map (.left, ·)))).1 =
        (server.serveAll (turns now merged)).1.filter (·.1 = .left) ∧
      AgreeOn (fun key => ∀ value ∈ right, value.key? ≠ some key)
        (server.serveAll (turns now merged)).2
        (server.serveAll (turns now (left.map (.left, ·)))).2 := by
  have ran := server.serveAll_part now .left merged
    (fun value member => plain value (merges.mem_iff.mp member))
    (by rwa [Side.other, merges.left, merges.right])
  rwa [Side.other, merges.left, merges.right] at ran

theorem serveAll_right (merges : Side.Merges left right merged)
    (plain : ∀ value ∈ left ++ right, value.command ≠ .ok .info) (apart : Value.Apart left right) :
    (server.serveAll (turns now (right.map (.right, ·)))).1 =
        (server.serveAll (turns now merged)).1.filter (·.1 = .right) ∧
      AgreeOn (fun key => ∀ value ∈ left, value.key? ≠ some key)
        (server.serveAll (turns now merged)).2
        (server.serveAll (turns now (right.map (.right, ·)))).2 := by
  have ran := server.serveAll_part now .right merged
    (fun value member => plain value (merges.mem_iff.mp member))
    (by rw [Side.other, merges.left, merges.right]; exact apart.symm)
  rwa [Side.other, merges.left, merges.right] at ran

theorem find?_serveAll_turns {left right : List Value} {merged other : List (Side × Value)}
    (merges : Side.Merges left right merged) (also : Side.Merges left right other)
    (plain : ∀ value ∈ left ++ right, value.command ≠ .ok .info)
    (apart : Value.Apart left right) (key : Bytes) :
    (server.serveAll (turns now merged)).2.keys.find? key =
      (server.serveAll (turns now other)).2.keys.find? key := by
  -- One of the clients does not name the key, so the other one alone decides what it holds.
  by_cases mine : ∀ value ∈ right, value.key? ≠ some key
  · have one := (server.serveAll_left now merges plain apart).2.find? key mine
    have two := (server.serveAll_left now also plain apart).2.find? key mine
    rw [one, two]
  · have theirs : ∀ value ∈ left, value.key? ≠ some key := by
      intro value member named
      exact mine fun other inside same => apart value member other inside key named same
    have one := (server.serveAll_right now merges plain apart).2.find? key theirs
    have two := (server.serveAll_right now also plain apart).2.find? key theirs
    rw [one, two]

private theorem places_pos {server : Server} {address : String} {box : OutboxId}
    (found : server.replica? address = some box) : 0 < server.places box := by
  unfold replica? at found
  unfold places
  cases held : server.role.registry? with
  | none => simp [held] at found
  | some replicas =>
    rw [held] at found
    exact List.count_pos_iff.mpr (Table.mem_values_iff.mpr ⟨address, found⟩)

/-- The last frame for a key in the queue of a replica carries what is last assigned to the key. -/
theorem Wrote.latest?_frames {writes : List Assignment} {before after : Server}
    (wrote : Wrote writes before after) {address : String} {box : OutboxId}
    (found : before.replica? address = some box) (opened : before.outboxes.isOpen box = true)
    {key : Bytes} {last : Assignment} (latest : Assignment.latest? writes key = some last) :
    Assignment.latest? ((after.outboxes.frames box).filterMap Frame.write?) key =
      some last.permanent := by
  obtain ⟨count, places⟩ := Nat.exists_eq_add_one_of_ne_zero (Nat.ne_of_gt (places_pos found))
  have carried : ∀ written : Assignment, Frame.write? (.value written.toValue) = some written.permanent :=
    fun written => Value.write?_eq_some_iff.mpr written.command_toValue
  have copies : (writes.flatMap fun written =>
      List.replicate (count + 1) (Frame.value written.toValue)).filterMap Frame.write? =
      writes.flatMap fun written => List.replicate (count + 1) written.permanent := by
    rw [List.filterMap_flatMap]
    simp only [List.filterMap_replicate, carried]
  rw [wrote.frames box opened, places, List.filterMap_append, copies, Assignment.latest?_append,
    Assignment.latest?_copies, latest]
  rfl

/-- The values that carry the assignments of both clients, each with the client that it is from. -/
def fed (merged : List (Side × Value)) : List (Side × Value) :=
  merged.filterMap fun (side, value) => (value.write?.map Assignment.toValue).map (side, ·)

private theorem map_snd_fed (merged : List (Side × Value)) :
    (fed merged).map Prod.snd =
      ((merged.map Prod.snd).filterMap Value.write?).map Assignment.toValue := by
  unfold fed
  rw [List.map_filterMap, List.filterMap_map, List.map_filterMap]
  apply List.filterMap_congr
  rintro ⟨side, value⟩ _
  cases assigned : value.write? <;> simp [assigned]

private theorem wrote_turns (merged : List (Side × Value)) :
    Wrote ((merged.map Prod.snd).filterMap Value.write?) server
      (server.serveAll (turns now merged)).2 := by
  rw [← writes_turns now merged]
  exact server.wrote_serveAll _

private theorem current_turns (merged : List (Side × Value)) :
    (server.serveAll (turns now merged)).2.keys.Current now
      ((merged.map Prod.snd).filterMap Value.write?) := by
  have together : ∀ turn ∈ turns now merged, turn.now = now := by
    intro turn member
    obtain ⟨_, _, rfl⟩ := List.mem_map.mp member
    rfl
  have none : server.keys.Current now [] := by
    intro key written latest
    cases latest
  have current := current_serveAll together server none
  rwa [List.nil_append, writes_turns] at current

/-- Two clients send requests to any server, which executes them at one time, in any order that
keeps each client's own. If none of them asks for the report and they name no key in common, each
client is answered as if it were alone, and the entries held at the end, the replicas on record and
the offset do not depend on the order. In any case each queue that is open is fed what both of them
assign, in the order of each, as often as it is recorded; and the last frame for a key in a
replica's queue, which stays recorded, carries what the key holds at the end. -/
theorem independent_clients_commute (left right : List Value) :
    let run merged := server.serveAll (turns now merged)
    ((∀ value ∈ left ++ right, value.command ≠ .ok .info) → Value.Apart left right →
      (∀ merged, Side.Merges left right merged →
        (run merged).1.filter (·.1 = .left) = (run (left.map (.left, ·))).1 ∧
        (run merged).1.filter (·.1 = .right) = (run (right.map (.right, ·))).1) ∧
      ∀ merged other, Side.Merges left right merged → Side.Merges left right other →
        (run merged).2.keys.entries.entries.Perm (run other).2.keys.entries.entries ∧
        (run merged).2.role = (run other).2.role ∧ (run merged).2.offset = (run other).2.offset) ∧
    ∀ merged, Side.Merges left right merged →
      (∃ fed, Side.Merges (Value.copies left) (Value.copies right) fed ∧
        ∀ box, server.outboxes.isOpen box = true →
          (run merged).2.outboxes.frames box = server.outboxes.frames box ++
            (fed.map Prod.snd).flatMap fun value =>
              List.replicate (server.places box) (.value value)) ∧
      ∀ address box, server.replica? address = some box → server.outboxes.isOpen box = true →
        (run merged).2.replica? address = some box ∧ (run merged).2.outboxes.isOpen box = true ∧
        ∀ value ∈ left ++ right, ∀ assignment, value.write? = some assignment →
          ∃ last entry, Assignment.latest?
              (((run merged).2.outboxes.frames box).filterMap Frame.write?) assignment.key = some last ∧
            (run merged).2.keys.find? assignment.key = some entry ∧
            last.content = entry.content := by
  intro run
  refine ⟨fun plain apart => ⟨?_, ?_⟩, fun merged merges => ⟨⟨fed merged, ?_, ?_⟩, ?_⟩⟩
  · intro merged merges
    exact ⟨(server.serveAll_left now merges plain apart).1.symm,
      (server.serveAll_right now merges plain apart).1.symm⟩
  · intro merged other merges also
    have one := server.wrote_turns now merged
    have two := server.wrote_turns now other
    have same := (merges.perm.symm.trans also.perm).filterMap Value.write?
    refine ⟨Table.perm_of_find? (server.find?_serveAll_turns now merges also plain apart), ?_, ?_⟩
    · rw [one.role, two.role, same.isEmpty_eq]
    · rw [one.offset, two.offset, Value.counted_perm (same.map Assignment.toValue)]
  · exact merges.filterMap _
  · intro box opened
    rw [(server.wrote_turns now merged).frames box opened, map_snd_fed, List.flatMap_map]
  · intro address box found opened
    have wrote := server.wrote_turns now merged
    refine ⟨(wrote.replica?_eq opened).mpr found, (wrote.isOpen box).trans opened, ?_⟩
    intro value member assignment assigned
    have written : assignment ∈ (merged.map Prod.snd).filterMap Value.write? :=
      List.mem_filterMap.mpr ⟨value, merges.mem_iff.mpr member, assigned⟩
    obtain ⟨last, latest⟩ := Assignment.exists_latest? written
    obtain ⟨entry, held, content, _⟩ := server.current_turns now merged _ last latest
    exact ⟨last.permanent, entry, wrote.latest?_frames found opened latest, held, content.symm⟩

/-- One client stores a key for a while and reads it, another one stores a second key. Whichever
of them is first, the reader is told the same and the replica is sent both writes. -/
theorem second_client_changes_nothing_for_first :
    let server := { start (.primary .empty) "id" with outboxes := .create .none }.register "r" 0
    let left := [Value.ofWords ["SET", "k", "v", "PX", "5"], Value.ofWords ["GET", "k"]]
    let right := [Value.ofWords ["SET", "j", "w"]]
    let early := right.map (Side.right, ·) ++ left.map (Side.left, ·)
    let late := left.map (Side.left, ·) ++ right.map (Side.right, ·)
    (∀ value ∈ left ++ right, value.command ≠ .ok .info) ∧ Value.Apart left right ∧
      Side.Merges left right early ∧ Side.Merges left right late ∧
      (server.serveAll (turns 7 early)).1.filter (·.1 = .left) =
        (server.serveAll (turns 7 (left.map (.left, ·)))).1 ∧
      (server.serveAll (turns 7 early)).2.keys.entries.entries.Perm
        (server.serveAll (turns 7 late)).2.keys.entries.entries ∧
      (server.serveAll (turns 7 early)).2.outboxes.frames 0 =
        (Value.copies (right ++ left)).map .value := by
  intro server left right early late
  have plain : ∀ value ∈ left ++ right, value.command ≠ .ok .info := by decide +kernel
  have apart : Value.Apart left right := by
    intro one member other inside key named
    have keys : ∀ one ∈ left, one.key? = some (Bytes.ofText "k") := by decide +kernel
    have others : ∀ other ∈ right, other.key? = some (Bytes.ofText "j") := by decide +kernel
    rw [keys one member] at named
    rw [others other inside, ← named]
    decide
  have first : Side.Merges left right early := ⟨by decide +kernel, by decide +kernel⟩
  have second : Side.Merges left right late := ⟨by decide +kernel, by decide +kernel⟩
  obtain ⟨free, _⟩ := server.independent_clients_commute 7 left right
  obtain ⟨alone, same⟩ := free plain apart
  exact ⟨plain, apart, first, second, (alone early first).1, (same early late first second).1,
    by decide +kernel⟩

end Server

end RespKeyspace
