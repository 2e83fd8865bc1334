import RespKeyspace.Value.Printer

/-! Why a request is refused. Two causes end the connection; every other one is a
mistake in the use of a command and is answered. -/

namespace RespKeyspace

inductive Refusal where
  | notACommand
  | unknownCommand (name : String)
  | echoArity
  | getArity
  | setArity
  | setSyntax
  | expiryNotInteger
  | expiryNotPositive
  | unsupportedSection
deriving Repr, DecidableEq

namespace Refusal

def message : Refusal → String
  | .notACommand => "invalid command"
  | .unknownCommand name => "unknown command '" ++ name ++ "'"
  | .echoArity => "wrong number of arguments for 'echo' command"
  | .getArity => "wrong number of arguments for 'get' command"
  | .setArity => "wrong number of arguments for 'set' command"
  | .setSyntax => "syntax error"
  | .expiryNotInteger => "value is not an integer or out of range"
  | .expiryNotPositive => "invalid expire time in 'set' command"
  | .unsupportedSection => "unsupported INFO section"

/-- A fatal refusal closes the connection and is not answered. -/
def isFatal : Refusal → Bool
  | .notACommand | .unknownCommand _ => true
  | _ => false

/-- The answer to a request that is refused. -/
def reply (refusal : Refusal) : Value := .error ("ERR " ++ refusal.message)

end Refusal

end RespKeyspace
