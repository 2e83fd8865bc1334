import RespKeyspace.Refusal
import RespKeyspace.Request
import RespKeyspace.Text.AsciiCase
import RespKeyspace.Text.Decimal

/-! Commands with their arguments checked. Every mistake in a request is found
here, before anything is executed. -/

namespace RespKeyspace

/-- A key, the value to store, and the milliseconds it is to live. -/
structure Assignment where
  key : Bytes
  content : Bytes
  lifetime : Option Nat
deriving Repr, DecidableEq

inductive Command where
  | ping
  | echo (content : Bytes)
  | get (key : Bytes)
  | set (assignment : Assignment)
  | info
  | replconf (asksOffset : Bool)
  | psync
deriving Repr, DecidableEq

namespace Command

/-- The milliseconds behind `PX`: a positive number of the signed 64-bit range. -/
def lifetime (digits : Bytes) : Except Refusal Nat :=
  match Decimal.signed? digits with
  | none => .error .expiryNotInteger
  | some number =>
    if 0 < number.toInt then .ok number.toInt.toNat else .error .expiryNotPositive

/-- The arguments of SET: a key, a value, and optionally `PX` with milliseconds. -/
def assignment : List Bytes → Except Refusal Assignment
  | [key, content] => .ok ⟨key, content, none⟩
  | [key, content, option, digits] =>
    if AsciiCase.same option (Bytes.ofText "PX") then
      (lifetime digits).map fun milliseconds => ⟨key, content, some milliseconds⟩
    else .error .setSyntax
  | _ :: _ :: _ => .error .setSyntax
  | _ => .error .setArity

/-- Whether the first argument is `word` in any ASCII case. -/
def opensWith (word : String) : List Bytes → Bool
  | [] => false
  | first :: _ => AsciiCase.same first (Bytes.ofText word)

/-- The command named `name`. PING, REPLCONF and PSYNC take any arguments; INFO
looks at the first one alone. -/
def named (name : String) (arguments : List Bytes) : Except Refusal Command :=
  match name with
  | "PING" => .ok .ping
  | "ECHO" =>
    match arguments with
    | [content] => .ok (.echo content)
    | _ => .error .echoArity
  | "GET" =>
    match arguments with
    | [key] => .ok (.get key)
    | _ => .error .getArity
  | "SET" => (assignment arguments).map .set
  | "INFO" =>
    if opensWith "REPLICATION" arguments then .ok .info else .error .unsupportedSection
  | "REPLCONF" => .ok (.replconf (opensWith "GETACK" arguments))
  | "PSYNC" => .ok .psync
  | _ => .error (.unknownCommand name)

def ofRequest (request : Request) : Except Refusal Command :=
  named request.name request.arguments

end Command

end RespKeyspace
