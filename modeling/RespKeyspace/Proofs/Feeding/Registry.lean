import RespKeyspace.Server
import RespKeyspace.Proofs.Feeding.Outboxes

/-! The replicas a server feeds, by address and by outbox, and what feeding them a
value does: to their outboxes, to the record of them, and to the offset. -/

namespace RespKeyspace

namespace Table

variable {Key Value : Type} [DecidableEq Key]

theorem find?_eq_some_iff {table : Table Key Value} {key : Key} {value : Value} :
    table.find? key = some value ↔ (key, value) ∈ table.entries := by
  obtain ⟨entries, nodup⟩ := table
  unfold find?
  dsimp only at nodup ⊢
  induction entries with
  | nil => simp
  | cons first rest ih =>
    obtain ⟨name, held⟩ := first
    obtain ⟨absent, nodup⟩ := List.nodup_cons.mp nodup
    by_cases same : key = name
    · subst same
      have missing : (key, value) ∉ rest := fun member =>
        absent (List.mem_map.mpr ⟨(key, value), member, rfl⟩)
      simp [missing, eq_comm]
    · simp [List.lookup_cons, beq_eq_false_iff_ne.mpr same, ih nodup, same]

theorem find?_filter (table : Table Key Value) (keep : Key → Value → Bool) (key : Key) :
    (table.filter keep).find? key = (table.find? key).filter (keep key) := by
  apply Option.ext
  intro value
  rw [find?_eq_some_iff, Option.filter_eq_some_iff, find?_eq_some_iff]
  simp [filter]

theorem mem_values_iff {table : Table Key Value} {value : Value} :
    value ∈ table.values ↔ ∃ key, table.find? key = some value := by
  simp [values, find?_eq_some_iff]

theorem mem_keys_iff {table : Table Key Value} {key : Key} :
    key ∈ table.keys ↔ ∃ value, table.find? key = some value := by
  simp [keys, find?_eq_some_iff]

omit [DecidableEq Key] in
theorem values_filter (table : Table Key Value) (keep : Value → Bool) :
    (table.filter fun _ value => keep value).values = table.values.filter keep := by
  simp [values, filter, List.filter_map, Function.comp_def]

theorem isEmpty_iff {table : Table Key Value} :
    table.isEmpty = true ↔ ∀ key, table.find? key = none := by
  constructor
  · intro empty key
    have none : table.entries = [] := List.isEmpty_iff.mp empty
    simp [find?, none]
  · intro missing
    apply List.isEmpty_iff.mpr
    apply List.eq_nil_iff_forall_not_mem.mpr
    rintro ⟨key, value⟩ member
    have found := find?_eq_some_iff.mpr member
    simp [missing key] at found

private theorem count_values_of_sole [DecidableEq Value] {table : Table Key Value} {key : Key}
    {value : Value}
    (found : table.find? key = some value)
    (sole : ∀ other, table.find? other = some value → other = key) :
    table.values.count value = 1 := by
  have once : ∀ entry ∈ table.entries, entry.2 = value → entry.1 = key := by
    rintro ⟨name, held⟩ member rfl
    exact sole name (find?_eq_some_iff.mpr member)
  have present := find?_eq_some_iff.mp found
  obtain ⟨entries, nodup⟩ := table
  unfold values
  dsimp only at nodup once present ⊢
  clear found sole
  induction entries with
  | nil => simp at present
  | cons first rest ih =>
    obtain ⟨name, held⟩ := first
    obtain ⟨absent, nodup⟩ := List.nodup_cons.mp nodup
    by_cases same : held = value
    · have here : name = key := once (name, held) (by simp) same
      subst same here
      have missing : (rest.map Prod.snd).count held = 0 := by
        apply List.count_eq_zero.mpr
        intro member
        obtain ⟨entry, inside, equal⟩ := List.mem_map.mp member
        have again := once entry (by simp [inside]) equal
        exact absent (List.mem_map.mpr ⟨entry, inside, again⟩)
      simp [missing]
    · have later : (key, value) ∈ rest := by
        rcases List.mem_cons.mp present with equal | inside
        · exact (same (by cases equal; rfl)).elim
        · exact inside
      have still := ih nodup (fun entry member => once entry (by simp [member])) later
      simpa [same] using still

private theorem count_values_of_absent [DecidableEq Value] {table : Table Key Value} {value : Value}
    (absent : ∀ key, table.find? key ≠ some value) : table.values.count value = 0 := by
  apply List.count_eq_zero.mpr
  intro member
  obtain ⟨key, found⟩ := mem_values_iff.mp member
  exact absent key found

end Table

namespace Server

def replica? (server : Server) (address : String) : Option OutboxId :=
  server.role.registry?.bind (·.find? address)

/-- The number of places in which an outbox is recorded. -/
def places (server : Server) (box : OutboxId) : Nat :=
  (server.role.registry?.map fun replicas => replicas.values.count box).getD 0

/-- Whether a value fed now arrives anywhere. -/
def HasLiveReplica (server : Server) : Prop :=
  ∃ address box, server.replica? address = some box ∧ server.outboxes.isOpen box = true

theorem hasLiveReplica_iff {server : Server} :
    server.HasLiveReplica ↔
      ∃ replicas, server.role.registry? = some replicas ∧
        replicas.values.any server.outboxes.isOpen = true := by
  unfold HasLiveReplica replica?
  cases server.role.registry? with
  | none => simp
  | some replicas =>
    simp only [Option.bind_some, List.any_eq_true, Table.mem_values_iff]
    constructor
    · rintro ⟨address, box, found, opened⟩
      exact ⟨replicas, rfl, box, ⟨address, found⟩, opened⟩
    · rintro ⟨_, same, box, ⟨address, found⟩, opened⟩
      cases same
      exact ⟨address, box, found, opened⟩

instance (server : Server) : Decidable server.HasLiveReplica :=
  match held : server.role.registry? with
  | none => .isFalse fun live => by simp [hasLiveReplica_iff, held] at live
  | some replicas =>
    decidable_of_iff (replicas.values.any server.outboxes.isOpen = true)
      (by simp [hasLiveReplica_iff, held])

variable {server : Server} {address : String} {box : OutboxId}

theorem places_of_sole (found : server.replica? address = some box)
    (sole : ∀ other, server.replica? other = some box → other = address) :
    server.places box = 1 := by
  unfold replica? at found sole
  unfold places
  cases held : server.role.registry? with
  | none => simp [held] at found
  | some replicas =>
    rw [held] at found sole
    simpa using Table.count_values_of_sole found sole

theorem places_of_absent (absent : ∀ other, server.replica? other ≠ some box) :
    server.places box = 0 := by
  unfold replica? at absent
  unfold places
  cases held : server.role.registry? with
  | none => rfl
  | some replicas =>
    rw [held] at absent
    simpa using Table.count_values_of_absent absent

@[simp] theorem replica?_deregister (server : Server) (address other : String) :
    (server.deregister address).replica? other =
      if other = address then none else server.replica? other := by
  unfold deregister replica?
  cases server.role <;> simp [Role.mapRegistry, Role.registry?]

theorem replica?_register (server : Server) (address other : String) (box : OutboxId) :
    (server.register address box).replica? other =
      if server.role.isPrimary = true ∧ other = address then some box
      else server.replica? other := by
  unfold register replica?
  cases server.role <;> simp [Role.mapRegistry, Role.registry?, Role.isPrimary]

@[simp] theorem isPrimary_register (server : Server) (address : String) (box : OutboxId) :
    (server.register address box).role.isPrimary = server.role.isPrimary := by
  unfold register
  cases server.role <;> rfl

@[simp] theorem isPrimary_deregister (server : Server) (address : String) :
    (server.deregister address).role.isPrimary = server.role.isPrimary := by
  unfold deregister
  cases server.role <;> rfl

/-! Feeding a value. -/

variable (server) (value : Value) (address) (box)

/-- Feeding forgets the replicas that can no longer be reached, and nothing else. -/
theorem role_propagate :
    (server.propagate value).role =
      server.role.mapRegistry (·.filter fun _ box => server.outboxes.isOpen box) := by
  unfold propagate
  split
  · rename_i role; rw [role]; rfl
  · rename_i role; simp [role, Role.mapRegistry]

@[simp] theorem isPrimary_propagate :
    (server.propagate value).role.isPrimary = server.role.isPrimary := by
  rw [role_propagate]
  cases server.role <;> rfl

theorem replica?_propagate :
    (server.propagate value).replica? address =
      (server.replica? address).filter fun box => server.outboxes.isOpen box := by
  unfold replica?
  rw [role_propagate]
  cases server.role with
  | replica followed => rfl
  | primary replicas => simp [Role.mapRegistry, Role.registry?, Table.find?_filter]

@[simp] theorem keys_propagate : (server.propagate value).keys = server.keys := by
  unfold propagate
  split <;> rfl

@[simp] theorem replicationId_propagate :
    (server.propagate value).replicationId = server.replicationId := by
  unfold propagate
  split <;> rfl

@[simp] theorem next_propagate : (server.propagate value).outboxes.next = server.outboxes.next := by
  unfold propagate
  split
  · rfl
  · simp

@[simp] theorem isOpen_propagate :
    (server.propagate value).outboxes.isOpen box = server.outboxes.isOpen box := by
  unfold propagate
  split
  · rfl
  · simp

/-- An outbox whose receiving end is there gets one copy for each place in which it is
recorded. -/
theorem frames_propagate :
    (server.propagate value).outboxes.frames box =
      server.outboxes.frames box ++
        if server.outboxes.isOpen box = true then
          List.replicate (server.places box) (.value value)
        else [] := by
  unfold propagate places
  cases server.role with
  | replica followed => simp [Role.registry?]
  | primary replicas =>
    dsimp only
    rw [Outboxes.frames_pushAll, Table.values_filter]
    by_cases opened : server.outboxes.isOpen box = true
    · simp [opened, Role.registry?, List.count_filter]
    · simp [opened]

theorem offset_propagate_of_live (live : server.HasLiveReplica) :
    (server.propagate value).offset = server.offset + frameLength value := by
  obtain ⟨address, box, found, opened⟩ := live
  unfold propagate
  unfold replica? at found
  cases role : server.role with
  | replica followed => simp [role, Role.registry?] at found
  | primary replicas =>
    rw [role] at found
    have fed : (replicas.filter fun _ box => server.outboxes.isOpen box).isEmpty ≠ true := by
      intro empty
      have missing := Table.isEmpty_iff.mp empty address
      have here : replicas.find? address = some box := found
      simp [Table.find?_filter, here, opened] at missing
    simp [fed]

theorem offset_propagate_of_not_live (dead : ¬ server.HasLiveReplica) :
    (server.propagate value).offset = server.offset := by
  unfold propagate
  cases role : server.role with
  | replica followed => rfl
  | primary replicas =>
    have unfed : (replicas.filter fun _ box => server.outboxes.isOpen box).isEmpty = true := by
      apply Table.isEmpty_iff.mpr
      intro address
      rw [Table.find?_filter]
      apply Option.filter_eq_none_iff.mpr
      intro box found opened
      exact dead ⟨address, box, by simp [replica?, role, Role.registry?, found], opened⟩
    simp [unfed]

end Server

end RespKeyspace
