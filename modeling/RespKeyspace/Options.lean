import RespKeyspace.Text.Blank
import RespKeyspace.Text.Decimal
import RespKeyspace.Replication

/-! The command line: a port to listen on and a primary to follow. Arguments are
judged from left to right, and the first mistake decides. A value given as an
argument of its own is judged only when the next option begins, or at the end. -/

namespace RespKeyspace

inductive OptionFault where
  | flag
  | value
deriving Repr, DecidableEq

def OptionFault.message : OptionFault → String
  | .flag => "Invalid command line flag"
  | .value => "Invalid command line flag value"

/-- What a command line asks for. -/
structure Options where
  port : Nat
  primary : Option Endpoint
deriving Repr, DecidableEq

namespace Options

def defaultPort : Nat := 6379

/-- A port in decimal, from 1 to 65535. -/
def port? (text : String) : Option Nat :=
  (Decimal.unsigned? 65535 (Bytes.ofText text)).filter (0 < ·)

def dialled (host : String) : String := if host = "localhost" then "127.0.0.1" else host

/-- A host and a port, two words. -/
def endpoint? (text : String) : Option Endpoint :=
  match Text.words text with
  | [host, port] => (port? port).map fun port => ⟨dialled host, port⟩
  | _ => none

inductive Key where
  | port
  | primary
deriving Repr, DecidableEq

/-- One argument: an option, perhaps with a value attached; a request for help or
for the version; the end of the options; an unknown option; or a plain word. -/
inductive Argument where
  | option (key : Key) (attached : Option String)
  | notice
  | terminator
  | unknown
  | word (text : String)
deriving Repr, DecidableEq

/-- The characters of a long option: its name, and the value behind the first
equals sign. -/
def splitAttached (content : List Char) : List Char × Option String :=
  let name := content.takeWhile (· != '=')
  match content.drop name.length with
  | [] => (name, none)
  | _ :: attached => (name, some (String.ofList attached))

def Argument.ofText (text : String) : Argument :=
  match text.toList with
  | ['-', '-'] => .terminator
  | '-' :: '-' :: content =>
    let (name, attached) := splitAttached content
    match String.ofList name with
    | "port" => .option .port attached
    | "replicaof" => .option .primary attached
    | "help" | "version" => .notice
    | _ => .unknown
  | '-' :: 'h' :: _ | '-' :: 'V' :: _ => .notice
  | '-' :: _ :: _ => .unknown
  | _ => .word text

/-- The values read so far, and one that is yet to be judged. -/
structure Scan where
  port : Option Nat := none
  primary : Option String := none
  waiting : Option (Key × String) := none
deriving Repr, DecidableEq

namespace Scan

/-- Judge a value: an option is given once, and a port has to be one. The primary
is looked at only when all arguments were accepted. -/
def accept (scan : Scan) (key : Key) (text : String) : Except OptionFault Scan :=
  match key with
  | .port =>
    if scan.port.isSome then .error .value
    else
      match port? text with
      | none => .error .value
      | some port => .ok { scan with port := some port }
  | .primary =>
    if scan.primary.isSome then .error .value else .ok { scan with primary := some text }

def settle (scan : Scan) : Except OptionFault Scan :=
  match scan.waiting with
  | none => .ok scan
  | some (key, text) => { scan with waiting := none }.accept key text

def run (scan : Scan) : List Argument → Except OptionFault Scan
  | [] => scan.settle
  | .unknown :: _ | .word _ :: _ | .terminator :: _ :: _ => .error .flag
  | [.terminator] => scan.settle
  | .notice :: _ => .error .value
  | .option key (some text) :: rest =>
    match scan.settle with
    | .error fault => .error fault
    | .ok settled =>
      match settled.accept key text with
      | .error fault => .error fault
      | .ok accepted => accepted.run rest
  | .option key none :: rest =>
    match scan.settle with
    | .error fault => .error fault
    | .ok settled =>
      match rest with
      | .word text :: rest => { settled with waiting := some (key, text) }.run rest
      | .unknown :: _ | .terminator :: _ :: _ => .error .flag
      | _ => .error .value

end Scan

/-- Read the arguments behind the name of the program. -/
def parse (arguments : List String) : Except OptionFault Options :=
  match ({} : Scan).run (arguments.map Argument.ofText) with
  | .error fault => .error fault
  | .ok scan =>
    let port := scan.port.getD defaultPort
    match scan.primary with
    | none => .ok ⟨port, none⟩
    | some text =>
      match endpoint? text with
      | none => .error .value
      | some primary => .ok ⟨port, some primary⟩

def role (options : Options) : Role :=
  match options.primary with
  | none => .primary .empty
  | some primary => .replica primary

end Options

end RespKeyspace
