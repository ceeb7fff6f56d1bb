/-!
# Options of a command line

A command has options, written `--name value` or `--name=value`, and flags, written `--name`.  A
value after a space must not look like an option itself; a lone dash does not.  An option is given
once unless it is repeatable.  Arguments are taken from left to right and the first that is wrong,
or that asks for help or the version, stops the reading.
-/

namespace Rehearsal.Command

/-- How often an option is given, and whether it takes a value. -/
inductive Arity where
  | flag
  | once
  | repeatable
  deriving DecidableEq, Repr

structure OptionSpec where
  name : String
  arity : Arity := .once
  required : Bool := false
  /-- Whether a text can be its value. -/
  accepts : String → Bool := fun _ => true

/-- Why the arguments of a command are not followed. -/
inductive Stop where
  | usage
  | help
  | version
  deriving DecidableEq, Repr

def Stop.exitCode : Stop → Nat
  | usage => 2
  | help => 0
  | version => 0

/-- The options given, by name, in order.  A flag has the empty value. -/
abbrev Given := List (String × String)

structure Parsed where
  given : Given
  /-- The first argument that is no option, and all that follow it. -/
  operands : List String := []
  /-- Whether a double dash stands before the operands. -/
  escaped : Bool := false
  deriving Repr

/-- An argument by its form. -/
inductive Argument where
  | escape
  | long (name : String) (value : Option String)
  | short (letter : Char)
  | operand
  deriving DecidableEq, Repr

def Argument.of (argument : String) : Argument :=
  match argument.toList with
  | ['-', '-'] => escape
  | '-' :: '-' :: text =>
      let name := String.ofList (text.takeWhile (· != '='))
      match text.dropWhile (· != '=') with
      | [] => long name none
      | _ :: value => long name (some (String.ofList value))
  | '-' :: letter :: _ => short letter
  | _ => operand

/-- Whether an argument can be the value of the option before it. -/
def isValue (argument : String) : Bool := Argument.of argument == .operand

/-- Adds an option to those given, if it may be given (again) and accepts its value. -/
def addOption (option : OptionSpec) (value : String) (given : Given) : Except Stop Given :=
  if option.arity ≠ .repeatable && given.any (·.1 == option.name) then .error .usage
  else if !option.accepts value then .error .usage
  else .ok (given ++ [(option.name, value)])

/-- Reads arguments up to the first operand.  A command that has a `version` tells it. -/
def readOptions (options : List OptionSpec) (version : Bool) (given : Given) :
    List String → Except Stop Parsed
  | [] => .ok { given }
  | argument :: rest =>
      match Argument.of argument with
      | .escape => .ok { given, operands := rest, escaped := true }
      | .operand => .ok { given, operands := argument :: rest }
      | .short letter =>
          if letter = 'h' then .error .help
          else if version && letter = 'V' then .error .version
          else .error .usage
      | .long name value =>
          match options.find? (·.name == name), value, rest with
          | none, none, _ =>
              if name = "help" then .error .help
              else if version && name = "version" then .error .version
              else .error .usage
          | none, some _, _ => .error .usage
          | some option, value, rest =>
              match option.arity, value, rest with
              | .flag, none, rest =>
                  match addOption option "" given with
                  | .error stop => .error stop
                  | .ok given => readOptions options version given rest
              | .flag, some _, _ => .error .usage
              | _, some value, rest =>
                  match addOption option value given with
                  | .error stop => .error stop
                  | .ok given => readOptions options version given rest
              | _, none, [] => .error .usage
              | _, none, value :: rest =>
                  if !isValue value then .error .usage
                  else
                    match addOption option value given with
                    | .error stop => .error stop
                    | .ok given => readOptions options version given rest

def complete (options : List OptionSpec) (given : Given) : Bool :=
  options.all fun option => !option.required || given.any (·.1 == option.name)

/-- The options of a command that takes no operands. -/
def readAll (options : List OptionSpec) (version : Bool) (arguments : List String) :
    Except Stop Given := do
  let parsed ← readOptions options version [] arguments
  if !parsed.operands.isEmpty || !complete options parsed.given then throw .usage
  return parsed.given

/-! ## Values -/

def Given.value? (given : Given) (name : String) : Option String :=
  (given.find? (·.1 == name)).map Prod.snd

def Given.value (given : Given) (name : String) (fallback : String := "") : String :=
  (given.value? name).getD fallback

def Given.values (given : Given) (name : String) : List String :=
  given.filterMap fun (key, value) => if key = name then some value else none

def Given.has (given : Given) (name : String) : Bool := given.any (·.1 == name)

end Rehearsal.Command
