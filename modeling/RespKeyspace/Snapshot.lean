import RespKeyspace.Value.Reader

/-! Snapshots on the wire. A snapshot travels behind a length header like a bulk
string, but no line end follows its bytes. -/

namespace RespKeyspace.Snapshot

/-- Why bytes are no snapshot. -/
inductive Fault where
  | invalidHeader
deriving Repr, DecidableEq

def Fault.message : Fault → String
  | .invalidHeader => "invalid snapshot header"

/-- The snapshot of a store without keys. -/
def empty : Bytes := [
  0x52, 0x45, 0x44, 0x49, 0x53, 0x30, 0x30, 0x31, 0x31, 0xFA, 0x09, 0x72, 0x65, 0x64, 0x69, 0x73,
  0x2D, 0x76, 0x65, 0x72, 0x05, 0x37, 0x2E, 0x32, 0x2E, 0x30, 0xFA, 0x0A, 0x72, 0x65, 0x64, 0x69,
  0x73, 0x2D, 0x62, 0x69, 0x74, 0x73, 0xC0, 0x40, 0xFA, 0x05, 0x63, 0x74, 0x69, 0x6D, 0x65, 0xC2,
  0x6D, 0x08, 0xBC, 0x65, 0xFA, 0x08, 0x75, 0x73, 0x65, 0x64, 0x2D, 0x6D, 0x65, 0x6D, 0xC2, 0xB0,
  0xC4, 0x10, 0x00, 0xFA, 0x08, 0x61, 0x6F, 0x66, 0x2D, 0x62, 0x61, 0x73, 0x65, 0xC0, 0x00, 0xFF,
  0xF0, 0x6E, 0x3B, 0xFE, 0xC0, 0xFF, 0x5A, 0xA2]

def encode (payload : Bytes) : Bytes :=
  Value.line Value.bulkMark (Decimal.ofNat payload.length) ++ payload

/-- Read one snapshot off the front of a buffer. The header is judged only once
its line is complete. -/
def read (bytes : Bytes) : Reading Fault Bytes :=
  match Bytes.splitLine? bytes with
  | none => .incomplete
  | some ([], _) => .malformed .invalidHeader
  | some (mark :: content, rest) =>
    if mark = Value.bulkMark then
      match Decimal.unsigned? Value.maxBulkLength content with
      | none => .malformed .invalidHeader
      | some count =>
        match Bytes.splitCount? count rest with
        | none => .incomplete
        | some (payload, behind) => .value payload behind
    else .malformed .invalidHeader

end RespKeyspace.Snapshot
