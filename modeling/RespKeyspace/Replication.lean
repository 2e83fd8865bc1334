import RespKeyspace.Outbox
import RespKeyspace.Table

/-! The two roles of a server, and the replicas a primary feeds. -/

namespace RespKeyspace

structure Endpoint where
  host : String
  port : Nat
deriving Repr, DecidableEq

def Endpoint.address (endpoint : Endpoint) : String :=
  endpoint.host ++ ":" ++ toString endpoint.port

/-- The replicas a primary feeds: the outbox of each address, one per address. -/
abbrev Registry := Table String OutboxId

/-- The addresses in the order of their characters, which is also that of their
UTF-8 bytes. -/
def Table.sortedKeys {Value : Type} (table : Table String Value) : List String :=
  table.keys.mergeSort fun left right => decide (left ≤ right)

/-- A primary feeds replicas; a replica follows a primary and feeds nobody. -/
inductive Role where
  | primary (replicas : Registry)
  | replica (followed : Endpoint)
deriving Repr, DecidableEq

namespace Role

/-- The word for a role in reports to clients. -/
def label : Role → String
  | .primary _ => "master"
  | .replica _ => "slave"

def isPrimary : Role → Bool
  | .primary _ => true
  | .replica _ => false

/-- The replicas fed; a replica keeps no record of any. -/
def registry? : Role → Option Registry
  | .primary replicas => some replicas
  | .replica _ => none

def connected (role : Role) : Nat := (role.registry?.map Table.size).getD 0

/-- Change the record of replicas, if the role keeps one. -/
def mapRegistry (change : Registry → Registry) : Role → Role
  | .primary replicas => .primary (change replicas)
  | .replica followed => .replica followed

end Role

end RespKeyspace
