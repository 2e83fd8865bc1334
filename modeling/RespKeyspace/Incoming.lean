import RespKeyspace.Snapshot

/-! Reading from a stream that delivers chunks. Bytes behind what a reader took
stay in the buffer for the next one, whichever kind it is. -/

namespace RespKeyspace

/-- Why a stream gave no value. -/
inductive ReadFault where
  | failed (reason : String)
  | closed
  | frame (fault : FrameFault)
  | snapshot (fault : Snapshot.Fault)
deriving Repr, DecidableEq

def ReadFault.message : ReadFault → String
  | .failed reason => "I/O error: " ++ reason
  | .closed => "connection closed"
  | .frame fault => "RESP parse error: " ++ fault.message
  | .snapshot fault => "snapshot error: " ++ fault.message

/-- The receiving side of a stream: bytes received and not yet used, the chunks
that later reads deliver, and the failure of every read behind them, if the
stream does not simply end. An empty chunk is a read that meets the end. -/
structure Incoming where
  buffer : Bytes
  chunks : List Bytes
  failure : Option String
deriving Repr, DecidableEq

namespace Incoming

/-- What a read behind the last chunk reports. -/
def ending (failure : Option String) : ReadFault :=
  match failure with
  | some reason => .failed reason
  | none => .closed

variable {Fault Content : Type}

/-- Examine the buffer, and add one chunk after another until it holds a value or
a fault, or a read delivers nothing. -/
def awaitFrom (examine : Bytes → Reading Fault Content) (blame : Fault → ReadFault)
    (failure : Option String) (buffer : Bytes) (chunks : List Bytes) :
    Except ReadFault Content × Incoming :=
  match examine buffer with
  | .value value rest => (.ok value, ⟨rest, chunks, failure⟩)
  | .malformed fault => (.error (blame fault), ⟨buffer, chunks, failure⟩)
  | .incomplete =>
    match chunks with
    | [] => (.error (ending failure), ⟨buffer, [], failure⟩)
    | [] :: later => (.error .closed, ⟨buffer, later, failure⟩)
    | chunk :: later => awaitFrom examine blame failure (buffer ++ chunk) later

/-- Read one value of the kind `examine` recognises. -/
def await (input : Incoming) (examine : Bytes → Reading Fault Content)
    (blame : Fault → ReadFault) : Except ReadFault Content × Incoming :=
  awaitFrom examine blame input.failure input.buffer input.chunks

/-- Every complete value in the buffer, at least one. -/
def readAll (input : Incoming) : Except ReadFault (List Value) × Incoming :=
  input.await Value.readAll .frame

def readOne (input : Incoming) : Except ReadFault Value × Incoming :=
  input.await Value.read .frame

def readSnapshot (input : Incoming) : Except ReadFault Bytes × Incoming :=
  input.await Snapshot.read .snapshot

end Incoming

end RespKeyspace
