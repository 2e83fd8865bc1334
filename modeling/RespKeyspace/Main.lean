import RespKeyspace.Options
import RespKeyspace.Session

/-! The program. It reads its command line, and as a primary serves one client on
standard input and output. -/

namespace RespKeyspace.Program

/-- A replication id: forty hexadecimal digits at random. -/
def freshReplicationId : IO String := do
  let digits ← (List.replicate 40 ()).mapM fun _ => IO.rand 0 15
  return String.ofList (digits.map Nat.digitChar)

/-- Serve the client until it ends or the connection is closed. -/
partial def serveStandardInput (input output : IO.FS.Stream) (client : Server.Client)
    (pending : Bytes) (server : Server) : IO Unit := do
  let received ← input.read 1
  if received.isEmpty then return
  let now ← IO.monoMsNow
  let (left, after) := server.receiveClient now client (pending ++ received.data.toList)
  let frames := after.outboxes.waiting client.outbox
  output.write ⟨(frames.flatMap Frame.encode).toArray⟩
  output.flush
  let handedOver := { after with outboxes := after.outboxes.update client.outbox .collect }
  match left with
  | none => return
  | some pending => serveStandardInput input output client pending handedOver

def run (arguments : List String) : IO UInt32 := do
  match Options.parse arguments with
  | .error fault =>
    IO.eprintln fault.message
    return 1
  | .ok options =>
    match options.primary with
    | some primary =>
      IO.eprintln ("a replica needs a connection to its primary " ++ primary.address)
      return 1
    | none =>
      let server := Server.start options.role (← freshReplicationId)
      let client : Server.Client := ⟨"standard input", server.outboxes.next⟩
      let opened := { server with outboxes := server.outboxes.create }
      serveStandardInput (← IO.getStdin) (← IO.getStdout) client [] opened
      return 0

end RespKeyspace.Program

def main (arguments : List String) : IO UInt32 := RespKeyspace.Program.run arguments
