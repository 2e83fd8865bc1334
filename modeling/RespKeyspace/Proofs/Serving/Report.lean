import RespKeyspace.Server

/-! The replication report as a text: every field of it stands there on a line of its own. -/

namespace RespKeyspace

namespace Text

/-- A whole line of a text: it stands at the front or behind a line break, and a break ends it. -/
inductive HasLine (line : String) : String → Prop where
  | first (rest : String) : HasLine line (line ++ "\r\n" ++ rest)
  | later (before : String) {text : String} (within : HasLine line text) :
      HasLine line (before ++ "\r\n" ++ text)

private theorem hasLine_join {line : String} {lines : List String} (member : line ∈ lines) :
    HasLine line (String.join (lines.map (· ++ "\r\n"))) := by
  induction member with
  | head rest =>
    rw [List.map_cons, String.join_cons]
    exact .first _
  | tail before _ ih =>
    rw [List.map_cons, String.join_cons]
    exact .later before ih

end Text

namespace Server

variable {server : Server} {name value : String}

/-- Every field of the report has a line of its own in the text. -/
theorem hasLine_replicationReport (reported : (name, value) ∈ server.replicationFields) :
    Text.HasLine (name ++ ":" ++ value) server.replicationReport := by
  have lines : server.replicationReport =
      String.join ((server.replicationFields.map fun field => field.1 ++ ":" ++ field.2).map
        (· ++ "\r\n")) := by
    rw [List.map_map]
    rfl
  rw [lines]
  exact Text.hasLine_join (List.mem_map.mpr ⟨(name, value), reported, rfl⟩)

example : (start (.replica ⟨"host", 6379⟩) "id").replicationReport =
    "role:slave\r\nconnected_slaves:0\r\nmaster_replid:id\r\nmaster_repl_offset:0\r\n" ++
      "second_repl_offset:-1\r\nrepl_backlog_active:0\r\nrepl_backlog_size:1048576\r\n" ++
      "repl_backlog_first_byte_offset:0\r\nrepl_backlog_histlen:0\r\n" := by decide +kernel

theorem hasLine_replicationId (server : Server) :
    Text.HasLine ("master_replid:" ++ server.replicationId) server.replicationReport := by
  have reported : ("master_replid", server.replicationId) ∈ server.replicationFields := by
    simp [replicationFields]
  simpa using hasLine_replicationReport reported

theorem hasLine_connected (server : Server) :
    Text.HasLine ("connected_slaves:" ++ toString server.role.connected) server.replicationReport := by
  have reported : ("connected_slaves", toString server.role.connected) ∈ server.replicationFields := by
    simp [replicationFields]
  simpa using hasLine_replicationReport reported

end Server

end RespKeyspace
