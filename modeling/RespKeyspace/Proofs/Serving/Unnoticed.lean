import RespKeyspace.Proofs.Serving.Turns
import RespKeyspace.Proofs.Session.Recall

/-! Requests that assign nothing go unnoticed. A server that executed them and one that did not
answer alike from then on, though the one has removed expired keys that the other still holds. -/

namespace RespKeyspace

namespace Keyspace

/-- Keys that every read finds the same, from a time on. Entries that have expired by then make
no difference. -/
def ReadsAs (left right : Keyspace) (now : Nat) : Prop :=
  ∀ key, ((left.find? key).filter fun entry => !entry.isExpired now) =
    (right.find? key).filter fun entry => !entry.isExpired now

variable {left right third : Keyspace} {now : Nat}

theorem ReadsAs.refl (keys : Keyspace) (now : Nat) : keys.ReadsAs keys now := fun _ => rfl

theorem ReadsAs.symm (alike : left.ReadsAs right now) : right.ReadsAs left now :=
  fun key => (alike key).symm

theorem ReadsAs.trans (first : left.ReadsAs right now) (second : right.ReadsAs third now) :
    left.ReadsAs third now :=
  fun key => (first key).trans (second key)

theorem filter_later (found : Option Entry) {later : Nat} (order : now ≤ later) :
    ((found.filter fun entry => !entry.isExpired now).filter fun entry => !entry.isExpired later) =
      found.filter fun entry => !entry.isExpired later := by
  cases found with
  | none => rfl
  | some entry =>
    cases expired : entry.isExpired now with
    | false => simp [Option.filter, expired]
    | true => simp [Option.filter, expired, entry.isExpired_mono order expired]

theorem ReadsAs.later (alike : left.ReadsAs right now) {later : Nat} (order : now ≤ later) :
    left.ReadsAs right later := by
  intro key
  rw [← filter_later (left.find? key) order, alike key, filter_later _ order]

theorem ReadsAs.get_fst (alike : left.ReadsAs right now) (key : Bytes) :
    (left.get now key).1 = (right.get now key).1 := by
  rw [Keyspace.get_fst, Keyspace.get_fst, alike key]

theorem readsAs_get (keys : Keyspace) (now : Nat) (key : Bytes) :
    (keys.get now key).2.ReadsAs keys now := by
  intro other
  rw [find?_get]
  split
  · rename_i same
    subst same
    exact filter_later _ (Nat.le_refl now)
  · rfl

theorem ReadsAs.set (alike : left.ReadsAs right now) (assignment : Assignment) :
    (left.set now assignment.key assignment.content assignment.lifetime).ReadsAs
      (right.set now assignment.key assignment.content assignment.lifetime) now := by
  intro key
  rw [find?_set, find?_set]
  split
  · rfl
  · exact alike key

private theorem readsAs_apply {value : Value} (quiet : value.write? = none) (keys : Keyspace)
    (now : Nat) :
    (value.apply now keys).ReadsAs keys now := by
  unfold Value.apply
  cases asked : value.command with
  | error refusal => exact .refl keys now
  | ok command =>
    cases command with
    | set assignment => simp [Value.write?, asked] at quiet
    | get key => exact keys.readsAs_get now key
    | _ => exact .refl keys now

end Keyspace

namespace Server

variable {left right : Server} {now : Nat}

/-- Servers that differ in the keys alone, and in none that a read from a time on could find. -/
def Alike (now : Nat) (left right : Server) : Prop :=
  ∃ keys, right = { left with keys } ∧ left.keys.ReadsAs keys now

theorem Alike.refl (now : Nat) (server : Server) : Alike now server server :=
  ⟨server.keys, rfl, .refl server.keys now⟩

theorem Alike.later (alike : Alike now left right) {later : Nat} (order : now ≤ later) :
    Alike later left right := by
  obtain ⟨keys, same, reads⟩ := alike
  exact ⟨keys, same, reads.later order⟩

theorem Alike.trans {third : Server} (first : Alike now left right)
    (second : Alike now right third) : Alike now left third := by
  obtain ⟨keys, rfl, reads⟩ := first
  obtain ⟨others, rfl, same⟩ := second
  exact ⟨others, rfl, reads.trans same⟩

private theorem assign_with_keys (server : Server) (keys : Keyspace) (now : Nat)
    (assignment : Assignment) :
    assign { server with keys } now assignment =
      { server.assign now assignment with
        keys := keys.set now assignment.key assignment.content assignment.lifetime } := by
  obtain ⟨role, replicationId, offset, held, outboxes⟩ := server
  cases role <;> rfl

theorem Alike.serve (alike : Alike now left right) (value : Value) :
    (right.serve now value).1 = (left.serve now value).1 ∧
      Alike now (left.serve now value).2 (right.serve now value).2 := by
  obtain ⟨keys, rfl, reads⟩ := alike
  cases asked : value.command with
  | error refusal =>
    rw [serve_of_error _ _ asked, serve_of_error _ _ asked]
    exact ⟨rfl, keys, rfl, reads⟩
  | ok command =>
    rw [serve_of_ok _ _ asked, serve_of_ok _ _ asked]
    cases command with
    | get key =>
      refine ⟨by simp [perform, reads.get_fst key], _, rfl, ?_⟩
      exact (left.keys.readsAs_get now key).trans (reads.trans (keys.readsAs_get now key).symm)
    | set assignment =>
      refine ⟨rfl, _, left.assign_with_keys keys now assignment, ?_⟩
      simp only [perform, keys_assign]
      exact reads.set assignment
    | _ => exact ⟨rfl, keys, rfl, reads⟩

/-- A request that assigns nothing leaves a server as it was, for all that can be noticed. -/
theorem alike_serve {value : Value} (quiet : value.write? = none) (server : Server) (now : Nat) :
    Alike now (server.serve now value).2 server := by
  have same := server.keys_serve now value
  rcases server.serve_cases now value with ⟨assignment, assigned, _⟩ | ⟨_, keys, served⟩
  · rw [quiet] at assigned
    cases assigned
  · rw [served] at same ⊢
    obtain rfl : keys = value.apply now server.keys := same
    exact ⟨server.keys, rfl, Keyspace.readsAs_apply quiet server.keys now⟩

variable {Label : Type}

/-- Servers ahead of requests of which one is to leave some out. They are alike from a time on
that no request precedes, and what is left out assigns nothing. -/
structure Ahead (keep : Label → Bool) (last : Nat) (turns : List (Turn Label))
    (left right : Server) : Prop where
  alike : ∃ now ≤ last, Alike now left right ∧ ∀ turn ∈ turns, now ≤ turn.now
  clock : turns.Pairwise fun earlier later => earlier.now ≤ later.now
  within : ∀ turn ∈ turns, turn.now ≤ last
  quiet : ∀ turn ∈ turns, keep turn.label = false → turn.value.write? = none

namespace Ahead

variable {keep : Label → Bool} {last : Nat} {turn : Turn Label} {rest : List (Turn Label)}

private theorem head (ahead : Ahead keep last (turn :: rest) left right) :
    Alike turn.now left right := by
  obtain ⟨now, _, alike, reached⟩ := ahead.alike
  exact alike.later (reached turn List.mem_cons_self)

private theorem tail (ahead : Ahead keep last (turn :: rest) left right) {first second : Server}
    (alike : Alike turn.now first second) : Ahead keep last rest first second := by
  obtain ⟨order, clock⟩ := List.pairwise_cons.mp ahead.clock
  exact {
    alike := ⟨turn.now, ahead.within turn List.mem_cons_self, alike, order⟩
    clock := clock
    within := fun other member => ahead.within other (List.mem_cons_of_mem turn member)
    quiet := fun other member => ahead.quiet other (List.mem_cons_of_mem turn member) }

/-- Leaving out requests that assign nothing changes neither what the others come to nor
anything else that can be noticed. -/
theorem serveAll {turns : List (Turn Label)} (ahead : Ahead keep last turns left right) :
    (right.serveAll (turns.filter (keep ·.label))).1 = (left.serveAll turns).1.filter (keep ·.1) ∧
      Alike last (left.serveAll turns).2 (right.serveAll (turns.filter (keep ·.label))).2 := by
  obtain ⟨results, ended⟩ := serveAll_filter (Ahead keep last) keep
    (fun turn rest left right ahead _ => by
      obtain ⟨same, behind⟩ := ahead.head.serve turn.value
      exact ⟨same, ahead.tail behind⟩)
    (fun turn rest left right ahead out => by
      have quiet := ahead.quiet turn List.mem_cons_self out
      exact ahead.tail ((alike_serve quiet left turn.now).trans ahead.head))
    ahead
  obtain ⟨now, order, alike, _⟩ := ended.alike
  exact ⟨results, alike.later order⟩

end Ahead

/-- At any server, requests may be executed at times that never go back. Leave out any of those
that assign nothing, by their labels: what the others come to, the replicas on record, the
offset and the queues are the same, and so is what any read finds from then on. What a read
removes, above all, changes nothing that follows. -/
theorem quiet_requests_go_unnoticed (server : Server) (turns : List (Turn Label))
    (clock : turns.Pairwise fun earlier later => earlier.now ≤ later.now) (keep : Label → Bool)
    (quiet : ∀ turn ∈ turns, keep turn.label = false → turn.value.write? = none) :
    let all := server.serveAll turns
    let kept := server.serveAll (turns.filter (keep ·.label))
    kept.1 = all.1.filter (keep ·.1) ∧
    kept.2.role = all.2.role ∧ kept.2.offset = all.2.offset ∧ kept.2.outboxes = all.2.outboxes ∧
    kept.2.replicationId = all.2.replicationId ∧
    (∀ now, (∀ turn ∈ turns, turn.now ≤ now) → ∀ key,
      (kept.2.keys.get now key).1 = (all.2.keys.get now key).1) ∧
    ∀ now, (∀ turn ∈ turns, now ≤ turn.now) → ∀ key,
      let read := { server with keys := (server.keys.get now key).2 }
      (read.serveAll turns).1 = all.1 ∧ (read.serveAll turns).2.outboxes = all.2.outboxes ∧
      (read.serveAll turns).2.role = all.2.role ∧ (read.serveAll turns).2.offset = all.2.offset := by
  intro all kept
  have bounded : ∀ turn ∈ turns, turn.now ≤ (turns.map Turn.now).max?.getD 0 := fun turn member =>
    List.le_max?_getD_of_mem (List.mem_map_of_mem member)
  have ended : ∀ last, (∀ turn ∈ turns, turn.now ≤ last) →
      kept.1 = all.1.filter (keep ·.1) ∧ Alike last all.2 kept.2 := by
    intro last bounded
    apply Ahead.serveAll
    exact ⟨⟨0, Nat.zero_le last, .refl 0 server, by simp⟩, clock, bounded, quiet⟩
  obtain ⟨results, keys, same, _⟩ := ended _ bounded
  refine ⟨results, by rw [same], by rw [same], by rw [same], by rw [same], ?_, ?_⟩
  · intro now past key
    obtain ⟨_, keys, same, reads⟩ := ended now past
    rw [same, reads.get_fst key]
  · intro now reached key read
    have alike : Alike now server read := ⟨_, rfl, (server.keys.readsAs_get now key).symm⟩
    have ahead : Ahead (fun _ => true) (now + (turns.map Turn.now).max?.getD 0) turns server read :=
      ⟨⟨now, Nat.le_add_right now _, alike, reached⟩, clock,
        fun turn member => Nat.le_add_left_of_le (bounded turn member), by simp⟩
    obtain ⟨results, keys, same, _⟩ := ahead.serveAll
    simp only [List.filter_true] at results same
    rw [same]
    exact ⟨results, rfl, rfl, rfl⟩

/-- A read that finds an expired key removes it. With the reads left out the key is held on, and
nothing else differs. -/
theorem expired_key_is_removed_unnoticed :
    let server := { start (.primary .empty) "id" with outboxes := .create .none }.register "r" 0
    let turns : List (Turn Nat) := [
      ⟨0, 0, Value.ofWords ["SET", "k", "v", "PX", "5"]⟩, ⟨1, 7, Value.ofWords ["GET", "k"]⟩,
      ⟨2, 8, Value.ofWords ["SET", "j", "w"]⟩, ⟨3, 9, Value.ofWords ["GET", "k"]⟩]
    let all := server.serveAll turns
    let kept := server.serveAll (turns.filter fun turn => turn.label != 1 && turn.label != 3)
    turns.Pairwise (fun earlier later => earlier.now ≤ later.now) ∧
      (∀ turn ∈ turns, (turn.label != 1 && turn.label != 3) = false → turn.value.write? = none) ∧
      kept.1 = all.1.filter (fun result => result.1 != 1 && result.1 != 3) ∧
      kept.2.outboxes = all.2.outboxes ∧ kept.2.offset = all.2.offset ∧
      (kept.2.keys.size, all.2.keys.size) = (2, 1) := by
  intro server turns all kept
  have clock : turns.Pairwise fun earlier later => earlier.now ≤ later.now := by decide +kernel
  have quiet : ∀ turn ∈ turns, (turn.label != 1 && turn.label != 3) = false →
      turn.value.write? = none := by decide +kernel
  obtain ⟨results, _, offset, outboxes, _⟩ :=
    quiet_requests_go_unnoticed server turns clock (fun label => label != 1 && label != 3) quiet
  exact ⟨clock, quiet, results, outboxes, offset, by decide +kernel⟩

end Server

end RespKeyspace
