import RespKeyspace.Proofs.Starting.Arguments
import RespKeyspace.Server

/-! The command line and the server it asks for. An accepted command line gives a port and at most
one primary, a server starts in the role that follows from it, and the text that names a primary
is read the same however its two words are spaced. -/

namespace RespKeyspace

namespace Options

variable {argument text : String} {arguments : List String}

private theorem splitAttached_spec {content name : List Char} {attached : Option String}
    (split : splitAttached content = (name, attached)) :
    content = name ++ attached.elim [] fun value => '=' :: value.toList := by
  let isName : Char → Bool := (· != '=')
  have apart : content.takeWhile isName ++ content.dropWhile isName = content :=
    List.takeWhile_append_dropWhile
  have behind : content.drop (content.takeWhile isName).length = content.dropWhile isName := by
    have dropped := @List.drop_left _ (content.takeWhile isName) (content.dropWhile isName)
    rwa [apart] at dropped
  unfold splitAttached at split
  dsimp only at split
  rw [behind] at split
  have ends := List.head?_dropWhile_not isName content
  rw [← apart]
  cases last : content.dropWhile isName with
  | nil =>
    rw [last] at split
    cases split
    rfl
  | cons sign value =>
    rw [last] at split ends
    cases split
    simpa [isName] using ends

private theorem ofText_eq_primary_iff {attached : Option String} :
    Argument.ofText argument = .option .primary attached ↔
      argument = "--replicaof" ++ attached.elim "" ("=" ++ ·) := by
  have letters : "replicaof".toList = ['r', 'e', 'p', 'l', 'i', 'c', 'a', 'o', 'f'] := rfl
  constructor
  · intro found
    unfold Argument.ofText at found
    split at found
    · cases found
    · rename_i content _ shape
      dsimp only at found
      split at found
      · cases found
      · rename_i same
        simp only [Argument.option.injEq, true_and] at found
        have name := congrArg String.toList same
        rw [String.toList_ofList, letters] at name
        have whole := splitAttached_spec (Prod.ext name found)
        apply String.toList_inj.mp
        rw [shape, whole]
        cases attached <;> simp
      · cases found
      · cases found
      · cases found
    · cases found
    · cases found
    · cases found
    · cases found
  · rintro rfl
    cases attached with
    | none => decide
    | some value => simp [Argument.ofText, splitAttached]

private theorem eq_of_ofText_word (found : Argument.ofText argument = .word text) :
    argument = text := by
  unfold Argument.ofText at found
  split at found
  · cases found
  · dsimp only at found
    split at found <;> cases found
  · cases found
  · cases found
  · cases found
  · exact Argument.word.inj found

/-- A primary given on a command line: attached to the option, or as the argument behind it. -/
def Given (arguments : List String) (text : String) : Prop :=
  "--replicaof=" ++ text ∈ arguments ∨ ["--replicaof", text] <:+: arguments

/-- On a command line that is accepted, what is given is what the arguments name. -/
theorem named_iff_given {scan final : Scan}
    (accepts : Scan.Accepts scan (arguments.map Argument.ofText) final) :
    Scan.Named (arguments.map Argument.ofText) text ↔ Given arguments text := by
  have flag : Argument.ofText "--replicaof" = .option .primary none := by decide
  have attached : ∀ {argument}, Argument.ofText argument = .option .primary (some text) ↔
      argument = "--replicaof=" ++ text := by
    intro argument
    rw [ofText_eq_primary_iff, Option.elim_some, ← String.append_assoc]
    rfl
  refine or_congr ?_ ?_
  · simp only [List.mem_map, attached, exists_eq_right]
  · rw [List.infix_map_iff]
    constructor
    · rintro ⟨given, inside, same⟩
      have length : given.length = 2 := by simpa using (congrArg List.length same).symm
      obtain ⟨option, word, rfl⟩ := List.length_eq_two.mp length
      simp only [List.map_cons, List.map_nil, List.cons.injEq, and_true] at same
      have named : option = "--replicaof" := by simpa using ofText_eq_primary_iff.mp same.1.symm
      rwa [named, eq_of_ofText_word same.2.symm] at inside
    · intro inside
      have mapped := inside.map Argument.ofText
      rw [List.map_cons, List.map_cons, List.map_nil, flag] at mapped
      obtain ⟨word, same⟩ := accepts.exists_word mapped
      refine ⟨["--replicaof", text], inside, ?_⟩
      rw [List.map_cons, List.map_cons, List.map_nil, flag, same, eq_of_ofText_word same]

/-- The texts that name a host and a port: two words, however they are spaced, the second of them
digits behind an optional plus sign. -/
inductive Names (host : String) (port : Nat) : String → Prop where
  | spaced {before between digits after : String} (front : Text.Blank before.toList)
      (amid : Text.Blank between.toList) (behind : Text.Blank after.toList) (apart : between ≠ "")
      (isWord : Text.IsWord host) (count : Decimal.Count (Bytes.ofText digits) port)
      (isPort : IsPort port) : Names host port (before ++ host ++ between ++ digits ++ after)

theorem endpoint?_eq_some_iff {primary : Endpoint} :
    endpoint? text = some primary ↔
      ∃ host port, Names host port text ∧ primary = ⟨dialled host, port⟩ := by
  constructor
  · intro found
    unfold endpoint? at found
    split at found
    · rename_i host digits words
      obtain ⟨port, read, rfl⟩ := Option.map_eq_some_iff.mp found
      obtain ⟨count, isPort⟩ := port?_eq_some_iff.mp read
      obtain ⟨isWord, _, before, between, after, rfl, front, amid, behind, apart⟩ :=
        Text.words_eq_pair_iff.mp words
      exact ⟨host, port, .spaced front amid behind apart isWord count isPort, rfl⟩
    · cases found
  · rintro ⟨host, port, names, rfl⟩
    cases names with
    | spaced front amid behind apart isWord count isPort =>
      have words := Text.words_eq_pair_iff.mpr
        ⟨isWord, count.isWord, _, _, _, rfl, front, amid, behind, apart⟩
      rw [endpoint?, words]
      simp [port?_eq_some_iff.mpr ⟨count, isPort⟩]

/-- The white space around and between two words is of no account. -/
theorem endpoint?_spaced {host digits before between after : String} (isWord : Text.IsWord host)
    (second : Text.IsWord digits) (front : Text.Blank before.toList) (amid : Text.Blank between.toList)
    (behind : Text.Blank after.toList) (apart : between ≠ "") :
    endpoint? (before ++ host ++ between ++ digits ++ after) = endpoint? (host ++ " " ++ digits) := by
  have spaced := Text.words_eq_pair_iff.mpr
    ⟨isWord, second, before, between, after, rfl, front, amid, behind, apart⟩
  have plain := Text.words_eq_pair_iff.mpr
    ⟨isWord, second, "", " ", "", rfl, Text.blank_nil, Text.blank_nil.cons rfl, Text.blank_nil, nofun⟩
  rw [String.empty_append, String.append_empty] at plain
  rw [endpoint?, endpoint?, spaced, plain]

theorem endpoint?_printed {host : String} {port : Nat} (isWord : Text.IsWord host)
    (isPort : IsPort port) : endpoint? (host ++ " " ++ toString port) = some ⟨dialled host, port⟩ := by
  have count : Decimal.Count (Bytes.ofText (toString port)) port := by
    rw [Bytes.ofText_toString]
    exact (Decimal.unsigned?_eq_some_iff.mp (Decimal.unsigned?_ofNat (Nat.le_refl port))).1
  refine endpoint?_eq_some_iff.mpr ⟨host, port, ?_, rfl⟩
  have names := @Names.spaced host port "" " " _ "" Text.blank_nil (Text.blank_nil.cons rfl)
    Text.blank_nil nofun isWord count isPort
  simpa using names

/-- The primary that an accepted command line names. -/
theorem primary_iff_given {scan : Scan}
    (found : ({} : Scan).run (arguments.map Argument.ofText) = .ok scan) :
    scan.primary = some text ↔ Given arguments text := by
  have accepts := Scan.accepts_of_run found
  rw [accepts.primary_eq_iff, named_iff_given accepts]
  simp

private theorem isPort_of_run {scan : Scan}
    (found : ({} : Scan).run (arguments.map Argument.ofText) = .ok scan) :
    IsPort (scan.port.getD defaultPort) := by
  have within := (Scan.accepts_of_run found).isPort (by simp)
  cases port : scan.port with
  | none => exact ⟨by decide, by decide⟩
  | some port => exact within _ port

theorem parse_of_absent {scan : Scan}
    (found : ({} : Scan).run (arguments.map Argument.ofText) = .ok scan)
    (absent : ∀ text, ¬ Given arguments text) :
    parse arguments = .ok ⟨scan.port.getD defaultPort, none⟩ := by
  have none : scan.primary = none :=
    Option.eq_none_iff_forall_ne_some.mpr fun text some =>
      absent text ((primary_iff_given found).mp some)
  unfold parse
  simp only [found, none]

theorem parse_of_given {scan : Scan}
    (found : ({} : Scan).run (arguments.map Argument.ofText) = .ok scan)
    (given : Given arguments text) :
    (∃ host port, Names host port text ∧
      parse arguments = .ok ⟨scan.port.getD defaultPort, some ⟨dialled host, port⟩⟩) ∨
    ((¬ ∃ host port, Names host port text) ∧ parse arguments = .error .value) := by
  have some := (primary_iff_given found).mpr given
  unfold parse
  simp only [found, some]
  cases read : endpoint? text with
  | some primary =>
    obtain ⟨host, port, names, rfl⟩ := endpoint?_eq_some_iff.mp read
    exact .inl ⟨host, port, names, rfl⟩
  | none =>
    refine .inr ⟨?_, rfl⟩
    rintro ⟨host, port, names⟩
    rw [endpoint?_eq_some_iff.mpr ⟨host, port, names, rfl⟩] at read
    cases read

private theorem exists_run_of_parse {options : Options} (parsed : parse arguments = .ok options) :
    ∃ scan, ({} : Scan).run (arguments.map Argument.ofText) = .ok scan := by
  unfold parse at parsed
  split at parsed
  · cases parsed
  · rename_i scan found
    exact ⟨scan, found⟩

/-- A server that starts from an accepted command line listens on a port, has offset zero, and is a
replica exactly if a primary was given; only otherwise it keeps a record of replicas, an empty
one. A text gives a primary exactly if it names a host and a port, and else the command line is
refused for a value, unless one of its arguments is not known at all. How the two words are spaced
makes no difference, and a host and a port that are printed are read back. -/
theorem accepted_options_are_consistent (arguments : List String) :
    (∀ options id, parse arguments = .ok options →
      let server := Server.start options.role id
      IsPort options.port ∧ server.offset = 0 ∧
      (server.role.isPrimary = false ↔ ∃ text, Given arguments text) ∧
      (server.role.registry? = if server.role.isPrimary then some .empty else none) ∧
      ∀ text, Given arguments text →
        ∃ host port, Names host port text ∧ server.role = .replica ⟨dialled host, port⟩) ∧
    (∀ scan text, ({} : Scan).run (arguments.map Argument.ofText) = .ok scan → Given arguments text →
      ((∃ options, parse arguments = .ok options) ↔ ∃ host port, Names host port text)) ∧
    (∀ text, Given arguments text → (¬ ∃ host port, Names host port text) →
      parse arguments = .error .value ∨
        ({} : Scan).run (arguments.map Argument.ofText) = .error .flag) ∧
    (∀ text primary, endpoint? text = some primary ↔ ∃ host port, Names host port text ∧
      primary = ⟨if host = "localhost" then "127.0.0.1" else host, port⟩) ∧
    (∀ host digits before between after : String, Text.IsWord host → Text.IsWord digits →
      Text.Blank before.toList → Text.Blank between.toList → Text.Blank after.toList → between ≠ "" →
      endpoint? (before ++ host ++ between ++ digits ++ after) = endpoint? (host ++ " " ++ digits)) ∧
    ∀ host port, Text.IsWord host → host ≠ "localhost" → IsPort port →
      endpoint? (host ++ " " ++ toString port) = some ⟨host, port⟩ := by
  refine ⟨?_, ?_, ?_, fun text primary => endpoint?_eq_some_iff, ?_, ?_⟩
  · intro options id parsed server
    obtain ⟨scan, found⟩ := exists_run_of_parse parsed
    by_cases named : ∃ text, Given arguments text
    · obtain ⟨text, given⟩ := named
      rcases parse_of_given found given with ⟨host, port, names, same⟩ | ⟨_, same⟩
      · cases same.symm.trans parsed
        refine ⟨isPort_of_run found, rfl, iff_of_true rfl ⟨text, given⟩, rfl, ?_⟩
        intro other again
        have both := (primary_iff_given found).mpr again
        rw [(primary_iff_given found).mpr given] at both
        cases both
        exact ⟨host, port, names, rfl⟩
      · cases same.symm.trans parsed
    · have absent := not_exists.mp named
      cases (parse_of_absent found absent).symm.trans parsed
      exact ⟨isPort_of_run found, rfl, iff_of_false nofun named, rfl,
        fun text given => absurd given (absent text)⟩
  · intro scan text found given
    rcases parse_of_given found given with ⟨host, port, names, same⟩ | ⟨foreign, same⟩
    · exact iff_of_true ⟨_, same⟩ ⟨host, port, names⟩
    · refine iff_of_false ?_ foreign
      rintro ⟨options, parsed⟩
      cases same.symm.trans parsed
  · intro text given foreign
    cases found : ({} : Scan).run (arguments.map Argument.ofText) with
    | ok scan =>
      rcases parse_of_given found given with ⟨host, port, names, _⟩ | ⟨_, same⟩
      · exact absurd ⟨host, port, names⟩ foreign
      · exact .inl same
    | error fault =>
      cases fault with
      | flag => exact .inr rfl
      | value =>
        unfold parse
        simp only [found, true_or]
  · intro host digits before between after isWord second front amid behind apart
    exact endpoint?_spaced isWord second front amid behind apart
  · intro host port isWord other isPort
    rw [endpoint?_printed isWord isPort, dialled, if_neg other]

/-- A primary in a spaced text, with a sign and zeros in front of its port, is followed where it is
dialled; a port of zero is refused, though everything else is fine. -/
theorem spaced_primary_is_followed :
    let text := "  localhost\t+06380 "
    let arguments := ["--port", "7", "--replicaof=" ++ text]
    let options : Options := ⟨7, some ⟨"127.0.0.1", 6380⟩⟩
    parse arguments = .ok options ∧ Given arguments text ∧
      (Server.start options.role "id").role.isPrimary = false ∧
      (∃ host port, Names host port text ∧ options.role = .replica ⟨dialled host, port⟩) ∧
      parse ["--replicaof", "host 0"] = .error .value ∧
      endpoint? ("host" ++ " " ++ toString 65535) = some ⟨"host", 65535⟩ := by
  intro text arguments options
  have parsed : parse arguments = .ok options := by decide +kernel
  have given : Given arguments text := .inl (by simp [arguments])
  obtain ⟨_, _, replica, _, follows⟩ :=
    (accepted_options_are_consistent arguments).1 options "id" parsed
  obtain ⟨_, _, refuses, reads, _, prints⟩ :=
    accepted_options_are_consistent ["--replicaof", "host 0"]
  have unread : endpoint? "host 0" = none := by decide +kernel
  have foreign : ¬ ∃ host port, Names host port "host 0" := by
    rintro ⟨host, port, names⟩
    rw [(reads "host 0" _).mpr ⟨host, port, names, rfl⟩] at unread
    cases unread
  have refused := refuses "host 0" (.inr List.infix_rfl) foreign
  refine ⟨parsed, given, replica.mpr ⟨text, given⟩, follows text given, ?_, ?_⟩
  · exact refused.resolve_right (by decide +kernel)
  · exact prints "host" 65535 (by decide) (by decide) ⟨by decide, by decide⟩

end Options

end RespKeyspace
