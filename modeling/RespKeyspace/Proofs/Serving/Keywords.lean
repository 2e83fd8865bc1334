import RespKeyspace.Proofs.Link.Upstream
import RespKeyspace.Proofs.Serving.Refused
import RespKeyspace.Proofs.Text.Capitals

/-! The keywords of requests. Commands are looked up by their keywords as texts in upper case, so
a command is found under its name in any case of ASCII letters, and with the letters `ſ` and `ı`
in place of `s` and `i`, but under no other bytes. -/

namespace RespKeyspace

/-- The command in whose use a refusal finds a mistake; nothing if no command was found. -/
def Refusal.command? : Refusal → Option String
  | .notACommand | .unknownCommand _ => none
  | .echoArity => some "ECHO"
  | .getArity => some "GET"
  | .setArity | .setSyntax | .expiryNotInteger | .expiryNotPositive => some "SET"
  | .unsupportedSection => some "INFO"

namespace Command

def name : Command → String
  | .ping => "PING"
  | .echo _ => "ECHO"
  | .get _ => "GET"
  | .set _ => "SET"
  | .info => "INFO"
  | .replconf _ => "REPLCONF"
  | .psync => "PSYNC"

variable {name : String} {arguments : List Bytes}

private theorem name_of_named {command : Command} (accepted : named name arguments = .ok command) :
    command.name = name := by
  unfold named at accepted
  split at accepted
  · cases accepted; rfl
  · split at accepted
    · cases accepted; rfl
    · cases accepted
  · split at accepted
    · cases accepted; rfl
    · cases accepted
  · cases checked : assignment arguments with
    | ok written =>
      rw [checked] at accepted
      cases accepted
      rfl
    | error refusal =>
      rw [checked] at accepted
      cases accepted
  · split at accepted
    · cases accepted; rfl
    · cases accepted
  · cases accepted; rfl
  · cases accepted; rfl
  · cases accepted

private theorem Faulty.command?_eq {refusal : Refusal} (faulty : Faulty name arguments refusal) :
    refusal.command? = if name ∈ names then some name else none := by
  cases faulty with
  | unknown foreign => exact (if_neg foreign).symm
  | _ => rfl

private theorem uppercase_of_mem_names :
    ∀ name ∈ names, Text.uppercase (Utf8.decodeLossy (Bytes.ofText name)) = name := by
  decide +kernel

private theorem mem_names_of_named {command : Command} (accepted : named name arguments = .ok command) :
    name ∈ names := by
  by_contra foreign
  rw [named_eq_error_iff.mpr (.unknown foreign)] at accepted
  cases accepted

private theorem capitals_of_mem_names : ∀ name ∈ names, Text.Capitals (Bytes.ofText name) ∧
    name.toList = (Bytes.ofText name).map Text.ofByte := by
  have table : ∀ name ∈ names,
      (∀ letter ∈ Bytes.ofText name, 0x41 ≤ letter.toNat ∧ letter.toNat ≤ 0x5A) ∧
      (∀ entry ∈ Text.caseExpansions,
        ¬ entry.2.map Char.ofNat <:+: (Bytes.ofText name).map Text.ofByte) ∧
      name.toList = (Bytes.ofText name).map Text.ofByte := by decide +kernel
  intro name member
  obtain ⟨ascii, whole, spelled⟩ := table name member
  exact ⟨⟨ascii, whole⟩, spelled⟩

end Command

namespace Value

/-- The command that a value selects: the one that is executed, or the one whose use is refused. -/
def selected? (value : Value) : Option String :=
  match value.command with
  | .ok command => some command.name
  | .error refusal => refusal.command?

/-- A value selects no command exactly if it ends the connection. -/
theorem selected?_eq_none_iff {value : Value} : value.selected? = none ↔ value.isFatal = true := by
  unfold selected? isFatal
  cases value.command with
  | ok command => simp
  | error refusal => cases refusal <;> simp [Refusal.command?, Refusal.isFatal]

end Value

namespace Connection

variable {connection : Connection} {now : Nat} {server after : Server} {value : Value}
  {refusal : Refusal}

private theorem execute_goes_on (proceeds : value.isFatal = false) :
    (connection.execute now value server).1 = true := by
  unfold execute
  cases connection.kind with
  | client => rw [Server.serveOne_fst, proceeds, Bool.not_false]
  | primary =>
    cases asked : value.command with
    | ok command =>
      simp only [Server.followOne, Server.follow_of_ok asked]
      cases (server.obey now command).1 <;> rfl
    | error refusal =>
      have answered : refusal.isFatal = false := by simpa [Value.isFatal, asked] using proceeds
      simp [Server.followOne, Server.follow_of_error asked, answered]

/-- A request under a name that no command has ends its connection. Nothing is queued for it, and
a link counts it. -/
theorem execute_of_fatal (refused : value.command = .error refusal) (ends : refusal.isFatal = true)
    (isRequest : value.isRequest = true) :
    connection.execute now value server =
      (false, if connection.kind = .primary then server.advance value else server) := by
  unfold execute
  cases connection.kind with
  | client => simpa [Server.serveOne, Server.serve_of_error server now refused] using ends
  | primary => simp [Server.followOne, Server.follow_of_error refused, ends, isRequest]

private theorem receive_of_end {buffer : Bytes} {earlier later : List Value} {final : Server}
    (held : (Value.decoded buffer).values = earlier ++ value :: later)
    (ran : Server.runUntil (connection.execute now) earlier server = (true, after))
    (ends : connection.execute now value after = (false, final)) :
    connection.receive now buffer server = (none, connection.finish final) := by
  rw [receive_eq]
  simp [Server.settle, held, Server.runUntil_append, ran, Server.runUntil, ends]

end Connection

namespace Request

/-- The bytes of a keyword with `s` and `i` in place of the letters `ſ` and `ı`, the only ones
beyond ASCII whose upper-case forms are those of ASCII letters. -/
def plain : Bytes → Bytes
  | [] => []
  | [byte] => [byte]
  | first :: second :: rest =>
    if first = 0xC5 ∧ second = 0xBF then 0x73 :: plain rest
    else if first = 0xC4 ∧ second = 0xB1 then 0x69 :: plain rest
    else first :: plain (second :: rest)

/-- Bytes are read as some capital letters exactly if the bytes that stand for them are these letters
in some case of ASCII. -/
def Spells (bytes spelled : Bytes) : Prop :=
  ∀ letters, Text.Capitals letters →
    ((Utf8.decodeFrom [] none bytes).flatMap Text.upperChars = letters.map Text.ofByte ↔
      spelled.map AsciiCase.upper = letters)

private theorem spells_nil : Spells [] [] := by
  intro letters _
  cases letters <;> simp [Utf8.decodeFrom]

theorem Spells.letter {char : Char} {byte : UInt8} {bytes rest spelled : Bytes}
    (spells : Spells rest spelled)
    (decoded : Utf8.decodeFrom [] none bytes = char :: Utf8.decodeFrom [] none rest)
    (upper : Text.upperChars char = [Text.ofByte (AsciiCase.upper byte)]) :
    Spells bytes (byte :: spelled) := by
  intro letters capitals
  rw [decoded]
  cases letters with
  | nil => simp [upper]
  | cons first later =>
    rw [List.flatMap_cons, upper, List.map_cons, List.map_cons, List.singleton_append,
      List.cons.injEq, List.cons.injEq, Text.ofByte_inj, spells later capitals.tail]

theorem Spells.cons {byte : UInt8} {rest spelled : Bytes} (spells : Spells rest spelled)
    (longS : ∀ later, byte :: rest ≠ 0xC5 :: 0xBF :: later)
    (dotlessI : ∀ later, byte :: rest ≠ 0xC4 :: 0xB1 :: later) :
    Spells (byte :: rest) (byte :: spelled) := by
  by_cases ascii : byte.toNat < 0x80
  · have decoded := Utf8.decodeFrom_ascii (UInt8.lt_iff_toNat_lt.mpr ascii) rest
    exact spells.letter decoded (Text.upperChars_ofByte ascii)
  · intro letters capitals
    have beyond : 0x80 ≤ byte.toNat := Nat.not_lt.mp ascii
    obtain ⟨first, later, decoded, foreign⟩ := Utf8.beginsForeign_of_beyond beyond longS dotlessI
    rw [decoded, List.flatMap_cons]
    refine iff_of_false (capitals.ne_upperChars foreign _) ?_
    rintro rfl
    have within := capitals.ascii _ List.mem_cons_self
    rw [AsciiCase.upper_of_outside (.inr (by omega))] at within
    omega

theorem spells_plain (bytes : Bytes) : Spells bytes (plain bytes) := by
  fun_induction plain bytes with
  | case1 => exact spells_nil
  | case2 byte => exact spells_nil.cons (by simp) (by simp)
  | case3 first second rest letter ih =>
    obtain ⟨rfl, rfl⟩ := letter
    exact ih.letter (Utf8.decodeFrom_longS rest) (by decide +kernel)
  | case4 first second rest _ letter ih =>
    obtain ⟨rfl, rfl⟩ := letter
    exact ih.letter (Utf8.decodeFrom_dotlessI rest) (by decide +kernel)
  | case5 first second rest notLongS notDotlessI ih =>
    refine ih.cons ?_ ?_
    · rintro later ⟨rfl, rfl, rfl⟩
      exact notLongS ⟨rfl, rfl⟩
    · rintro later ⟨rfl, rfl, rfl⟩
      exact notDotlessI ⟨rfl, rfl⟩

variable {request : Request} {name : String}

/-- A request goes by the name of a command exactly if its keyword in plain form is that name in
some case of ASCII letters. -/
theorem name_eq_iff (known : name ∈ Command.names) :
    request.name = name ↔ AsciiCase.same (plain request.keyword) (Bytes.ofText name) = true := by
  obtain ⟨capitals, spelled⟩ := Command.capitals_of_mem_names name known
  have upper : (Bytes.ofText name).map AsciiCase.upper = Bytes.ofText name := by
    refine (List.map_congr_left fun letter member => ?_).trans (List.map_id _)
    have within := capitals.ascii letter member
    exact AsciiCase.upper_of_outside (.inl (by omega))
  have read : request.name =
      String.ofList ((Utf8.decodeFrom [] none request.keyword).flatMap Text.upperChars) := by
    simp only [Request.name, Text.uppercase, Utf8.decodeLossy, String.toList_ofList]
  rw [AsciiCase.same, upper, beq_iff_eq, ← spells_plain request.keyword _ capitals, ← spelled, read]
  constructor
  · rintro rfl
    exact String.toList_ofList.symm
  · intro same
    rw [same, String.ofList_toList]

/-- The bytes of the letters `ſ` and `ı`. -/
def longS : Bytes := [0xC5, 0xBF]

def dotlessI : Bytes := [0xC4, 0xB1]

theorem plain_eq_self {bytes : Bytes} (noLongS : ¬ longS <:+: bytes)
    (noDotlessI : ¬ dotlessI <:+: bytes) : plain bytes = bytes := by
  fun_induction plain bytes with
  | case1 => rfl
  | case2 => rfl
  | case3 first second rest letter =>
    obtain ⟨rfl, rfl⟩ := letter
    exact absurd (List.prefix_append longS rest).isInfix noLongS
  | case4 first second rest _ letter =>
    obtain ⟨rfl, rfl⟩ := letter
    exact absurd (List.prefix_append dotlessI rest).isInfix noDotlessI
  | case5 first second rest _ _ ih =>
    have later := (List.suffix_cons first (second :: rest)).isInfix
    rw [ih (fun inside => noLongS (inside.trans later))
      fun inside => noDotlessI (inside.trans later)]

private theorem selected?_toValue (request : Request) :
    request.toValue.selected? = if request.name ∈ Command.names then some request.name else none := by
  rw [Value.selected?, Value.command_toValue, Command.ofRequest]
  cases asked : Command.named request.name request.arguments with
  | ok command => simp [Command.name_of_named asked, Command.mem_names_of_named asked]
  | error refusal => exact (Command.named_eq_error_iff.mp asked).command?_eq

theorem selected?_eq_some_iff : request.toValue.selected? = some name ↔
    name ∈ Command.names ∧ AsciiCase.same (plain request.keyword) (Bytes.ofText name) = true := by
  rw [selected?_toValue]
  constructor
  · intro selected
    split at selected
    · rename_i known
      cases selected
      exact ⟨known, (name_eq_iff known).mp rfl⟩
    · cases selected
  · rintro ⟨known, same⟩
    rw [(name_eq_iff known).mpr same, if_pos known]

private theorem command_of_unselected (unselected : request.toValue.selected? = none) :
    request.toValue.command = .error (.unknownCommand request.name) := by
  rw [selected?_toValue] at unselected
  have foreign : request.name ∉ Command.names := fun known => by simp [known] at unselected
  rw [Value.command_toValue]
  exact Command.named_eq_error_iff.mpr (.unknown foreign)

theorem command_of_selected (selected : request.toValue.selected? = some name) :
    request.toValue.command = (toValue ⟨Bytes.ofText name, request.arguments⟩).command := by
  have known := (selected?_eq_some_iff.mp selected).1
  have spelled : request.name = name := by
    rw [selected?_toValue] at selected
    split at selected
    · exact Option.some.inj selected
    · cases selected
  have named : Request.name ⟨Bytes.ofText name, request.arguments⟩ = name :=
    Command.uppercase_of_mem_names name known
  rw [Value.command_toValue, Value.command_toValue, Command.ofRequest, Command.ofRequest, spelled,
    named]

private theorem isRequest_toValue (request : Request) : request.toValue.isRequest = true := by
  simp [Value.isRequest, ofValue?_eq_some_iff.mpr rfl]

private theorem follow_toValue_of_error {refusal : Refusal} (server : Server) (now : Nat)
    (refused : request.toValue.command = .error refusal) :
    server.follow now request.toValue = (.error refusal, server.advance request.toValue) := by
  rw [Server.follow_of_error refused, if_pos (isRequest_toValue request)]

/-- A request selects a command exactly if its keyword, with the letters `ſ` and `ı` read as `s` and
`i`, is the command's name in some case of ASCII letters; without these letters in it, that is the
case of ASCII letters alone. Under every spelling it asks for the same and leaves the connection
open, and a link comes to the same server with the length of that spelling counted. A request that
selects none is refused as unknown, changes nothing and is not answered, and the connection it arrives
on is closed once those before it are executed. -/
theorem keyword_selects_command (request : Request) :
    (∀ name, request.toValue.selected? = some name ↔
      name ∈ Command.names ∧ AsciiCase.same (plain request.keyword) (Bytes.ofText name) = true) ∧
    (¬ longS <:+: request.keyword → ¬ dotlessI <:+: request.keyword →
      plain request.keyword = request.keyword) ∧
    (∀ name, request.toValue.selected? = some name → ∀ (server : Server) now,
      server.serve now request.toValue =
        server.serve now (toValue ⟨Bytes.ofText name, request.arguments⟩) ∧
      (∃ outcome after, server.follow now request.toValue =
          (outcome, Server.advance after request.toValue) ∧
        server.follow now (toValue ⟨Bytes.ofText name, request.arguments⟩) =
          (outcome, Server.advance after (toValue ⟨Bytes.ofText name, request.arguments⟩))) ∧
      ∀ connection : Connection, (connection.execute now request.toValue server).1 = true) ∧
    (request.toValue.selected? = none → ∀ (server : Server) now,
      (Refusal.unknownCommand request.name).isFatal = true ∧
      server.serve now request.toValue = (.error (.unknownCommand request.name), server) ∧
      server.follow now request.toValue =
        (.error (.unknownCommand request.name), server.advance request.toValue) ∧
      ∀ (connection : Connection) buffer earlier later after,
        (Value.decoded buffer).values = earlier ++ request.toValue :: later →
        Server.runUntil (connection.execute now) earlier server = (true, after) →
        connection.receive now buffer server = (none, connection.finish
          (if connection.kind = .primary then after.advance request.toValue else after))) := by
  refine ⟨fun name => selected?_eq_some_iff, plain_eq_self, ?_, ?_⟩
  · intro name selected server now
    have same := command_of_selected selected
    refine ⟨?_, ?_, fun connection => Connection.execute_goes_on ?_⟩
    · rw [Server.serve_eq, Server.serve_eq, same]
    · cases asked : request.toValue.command with
      | ok command =>
        exact ⟨_, _, Server.follow_of_ok asked, Server.follow_of_ok (same ▸ asked)⟩
      | error refusal =>
        exact ⟨_, _, follow_toValue_of_error server now asked,
          follow_toValue_of_error server now (same ▸ asked)⟩
    · rw [Bool.eq_false_iff, Ne, ← Value.selected?_eq_none_iff, selected]
      nofun
  · intro unselected server now
    have refused := command_of_unselected unselected
    refine ⟨rfl, Server.serve_of_error server now refused,
      follow_toValue_of_error server now refused, ?_⟩
    intro connection buffer earlier later after held ran
    exact Connection.receive_of_end held ran
      (Connection.execute_of_fatal refused rfl (isRequest_toValue request))

/-- A name in mixed case selects its command; a word that only begins with a name closes the
connection, on a link as well, where it is counted. -/
theorem longer_word_selects_nothing :
    let server := Server.start (.replica ⟨"host", 6379⟩) "id"
    let link : Connection := ⟨"primary", .primary, 0, some []⟩
    let assigned : Request := ⟨Bytes.ofText "sEt", [Bytes.ofText "k", Bytes.ofText "v"]⟩
    let unknown : Request := ⟨Bytes.ofText "SETS", assigned.arguments⟩
    assigned.toValue.selected? = some "SET" ∧
      server.serve 0 assigned.toValue = server.serve 0 (Value.ofWords ["SET", "k", "v"]) ∧
      unknown.toValue.selected? = none ∧
      link.receive 0 unknown.toValue.encode server = (none, { server with offset := 28 }) := by
  intro server link assigned unknown
  have none : unknown.toValue.selected? = none := by decide +kernel
  obtain ⟨selects, _, takes, _⟩ := keyword_selects_command assigned
  have selected : assigned.toValue.selected? = some "SET" := (selects "SET").mpr (by decide +kernel)
  obtain ⟨_, _, _, closes⟩ := (keyword_selects_command unknown).2.2.2 none server 0
  have read : Value.read unknown.toValue.encode = .value unknown.toValue [] := by decide +kernel
  have held : (Value.decoded unknown.toValue.encode).values = [] ++ unknown.toValue :: [] := by
    simp [Value.decoded_of_value read]
  refine ⟨selected, (takes "SET" selected server 0).1, none, ?_⟩
  rw [closes link _ [] [] server held rfl]
  decide +kernel

/-- A keyword that is no name of a command in any case of ASCII letters, under which SET is
executed all the same, for a client and on a link alike. -/
theorem long_s_selects_set :
    let request : Request := ⟨longS ++ Bytes.ofText "et", [Bytes.ofText "k", Bytes.ofText "v"]⟩
    let server := Server.start (.primary .empty) "id"
    let replica := Server.start (.replica ⟨"host", 6379⟩) "id"
    (∀ name ∈ Command.names, AsciiCase.same request.keyword (Bytes.ofText name) = false) ∧
      (server.serve 0 request.toValue).1 = .ok (.reply (.simple "OK")) ∧
      ((server.serve 0 request.toValue).2.keys.get 0 (Bytes.ofText "k")).1 = some (Bytes.ofText "v") ∧
      (replica.follow 0 request.toValue).1 = .ok .silent ∧
      ((replica.follow 0 request.toValue).2.keys.get 0 (Bytes.ofText "k")).1 = some (Bytes.ofText "v") := by
  decide +kernel

end Request

end RespKeyspace
