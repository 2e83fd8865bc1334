import RespKeyspace.Bytes

/-! What reading a buffer can come to: a value and the bytes behind it, a wish
for more bytes, or a fault. -/

namespace RespKeyspace

/-- The outcome of reading one value off the front of a buffer. A reader that
wants more bytes, or that finds a fault, takes nothing from the buffer. -/
inductive Reading (Fault Value : Type) where
  | value (value : Value) (rest : Bytes)
  | incomplete
  | malformed (fault : Fault)
deriving Repr, DecidableEq

namespace Reading

variable {Fault Value : Type}

def rest (buffer : Bytes) : Reading Fault Value → Bytes
  | .value _ rest => rest
  | _ => buffer

end Reading

end RespKeyspace
