import Rehearsal.Command.Address
import Rehearsal.Command.Options
import Rehearsal.Settings

/-!
# Options of the server

How a server is told where to listen and with what settings to serve.
-/

namespace Rehearsal.Command

/-- What a server is told. -/
structure ServerOptions where
  addr : String := "0.0.0.0"
  port : Nat := 7469
  settings : Settings := {}

namespace ServerOptions

/-- Whether a text is a number of the range. -/
def inRange (low high : Int) (text : String) : Bool :=
  match Text.readInt? text with
  | none => false
  | some n => low ≤ n && n ≤ high

/-- Whether a text is a number of 64 bits without sign. -/
def isWord (text : String) : Bool :=
  match Text.readNat? text with
  | none => false
  | some n => n < UInt64.size

/-- Whether a text is a number of 32 bits with sign. -/
def isInt32 : String → Bool := inRange (-2147483648) 2147483647

/-- Whether a text is a number of 64 bits with sign. -/
def isInt64 : String → Bool := inRange (-9223372036854775808) 9223372036854775807

def options : List OptionSpec :=
  [{ name := "addr" },
    { name := "port", accepts := inRange 0 65535 },
    { name := "default-page-size", accepts := isInt32 },
    { name := "stream-buffer", accepts := isWord }]

/-- The options that the arguments of a server give. -/
def parse (arguments : List String) : Except Stop ServerOptions := do
  let given ← readAll options true arguments
  let number (name : String) (fallback : Int) : Int :=
    ((given.value? name).bind Text.readInt?).getD fallback
  return {
    addr := given.value "addr" "0.0.0.0"
    port := (number "port" 7469).toNat
    settings := .of (.ofInt (number "default-page-size" fallbackPageSize.toInt))
      (number "stream-buffer" 1).toNat }

/-- The exit code of a server that does not come to listen, none if it does. -/
def exitCode? (arguments : List String) : Option Nat :=
  match parse arguments with
  | .error stop => some stop.exitCode
  | .ok options => if Address.isValid options.addr then none else some 1

end ServerOptions

end Rehearsal.Command
