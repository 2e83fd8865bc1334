import RespKeyspace.Incoming

/-! A stream in both directions, with the failures it is to meet and a record of
what passed over it. -/

namespace RespKeyspace

/-- What passed over a stream: bytes written, or a number of bytes read. -/
inductive Transfer where
  | wrote (content : Bytes)
  | read (count : Nat)
deriving Repr, DecidableEq

/-- How often an operation still succeeds before it fails for good, and the
reason it then gives. -/
structure Allowance where
  left : Nat
  reason : String
deriving Repr, DecidableEq

def Allowance.use (allowance : Option Allowance) : Except String Unit × Option Allowance :=
  match allowance with
  | none => (.ok (), none)
  | some ⟨0, reason⟩ => (.error reason, some ⟨0, reason⟩)
  | some ⟨left + 1, reason⟩ => (.ok (), some ⟨left, reason⟩)

structure Wire where
  incoming : Incoming
  writes : Option Allowance := none
  flushes : Option Allowance := none
  newestFirst : List Transfer := []
deriving Repr, DecidableEq

namespace Wire

/-- Put two transfers of one direction together. -/
def joinTransfer : Transfer → List Transfer → List Transfer
  | .wrote first, .wrote second :: rest => .wrote (first ++ second) :: rest
  | .read first, .read second :: rest => .read (first + second) :: rest
  | transfer, rest => transfer :: rest

/-- What passed over the stream, in order, with neighbours of one direction taken
together. -/
def transfers (wire : Wire) : List Transfer := wire.newestFirst.reverse.foldr joinTransfer []

def written (wire : Wire) : Bytes :=
  wire.newestFirst.reverse.flatMap fun
    | .wrote content => content
    | .read _ => []

/-- Write bytes in one piece; a failed write leaves no trace. -/
def write (wire : Wire) (content : Bytes) : Except String Unit × Wire :=
  match Allowance.use wire.writes with
  | (.ok (), writes) =>
    (.ok (), { wire with writes, newestFirst := .wrote content :: wire.newestFirst })
  | (.error reason, writes) => (.error reason, { wire with writes })

def flush (wire : Wire) : Except String Unit × Wire :=
  let (result, flushes) := Allowance.use wire.flushes
  (result, { wire with flushes })

/-- Read with a reader of the incoming side, recording each chunk it takes. -/
def readWith {Content : Type}
    (reader : Incoming → Except ReadFault Content × Incoming) (wire : Wire) :
    Except ReadFault Content × Wire :=
  let (result, incoming) := reader wire.incoming
  let taken := wire.incoming.chunks.take
    (wire.incoming.chunks.length - incoming.chunks.length)
  (result, { wire with
    incoming
    newestFirst := taken.reverse.map (.read ·.length) ++ wire.newestFirst })

end Wire

end RespKeyspace
