import Rehearsal.Command.Server

/-!
# Commands of the client

The commands that a client is given on its command line, one per method and a few more options.
-/

namespace Rehearsal.Command

open ServerOptions (isInt32 isInt64 isWord)

/-- The failure a command asks for: the number of its code, where `0` asks for none, and a
message. -/
structure ErrorOptions where
  code : Int32 := 0
  message : String := ""
  deriving DecidableEq, Repr

/-- A command of the client. -/
inductive ClientCommand where
  | echo (content : String) (error : ErrorOptions)
  | expand (content : String) (error : ErrorOptions)
  | collect (contents : List String)
  | chat (contents : List String)
  | timeout (delayMillis : UInt64) (content : String) (error : ErrorOptions)
  | setupRetry (codes : List Int32)
  | retry (id : String)
  | longrunning (afterMillis : Int64) (content : String) (error : ErrorOptions) (wait : Bool)
      (pollMillis : UInt64)
  | getOperation (name : String)
  | listOperations (pageSize : Int32) (pageToken : String)
  | cancelOperation (name : String)
  | deleteOperation (name : String)
  | waitOperation (name : String) (timeoutMillis : UInt64)
  | pagination (maxResponse pageSize : Int32) (pageToken : String) (all : Bool)
  | resourceName (id : String)
  | parameterFlattening (content : String) (repeated : List String) (nested : Option String)
  deriving DecidableEq, Repr

/-- A call of the client. -/
structure ClientCall where
  addr : String
  command : ClientCommand
  deriving DecidableEq, Repr

namespace ClientCommand

/-- The options of a failure. -/
def errorOptions : List OptionSpec :=
  [{ name := "error-code", accepts := isInt32 }, { name := "error-message" }]

/-- The options of each command, by its name. -/
def options : List (String × List OptionSpec) :=
  let content : OptionSpec := { name := "content" }
  let contents : OptionSpec := { name := "content", arity := .repeatable, required := true }
  let name : OptionSpec := { name := "name", required := true }
  let id : OptionSpec := { name := "id", required := true }
  let pageSize : OptionSpec := { name := "page-size", accepts := isInt32 }
  let pageToken : OptionSpec := { name := "page-token" }
  [("echo", content :: errorOptions),
    ("expand", content :: errorOptions),
    ("collect", [contents]),
    ("chat", [contents]),
    ("timeout", { name := "delay-ms", accepts := isWord } :: content :: errorOptions),
    ("setup-retry",
      [{ name := "code", arity := .repeatable, required := true, accepts := isInt32 }]),
    ("retry", [id]),
    ("longrunning",
      { name := "after-ms", accepts := isInt64 } :: content :: { name := "wait", arity := .flag } ::
        { name := "poll-ms", accepts := isWord } :: errorOptions),
    ("get-operation", [name]),
    ("list-operations", [pageSize, pageToken]),
    ("cancel-operation", [name]),
    ("delete-operation", [name]),
    ("wait-operation", [name, { name := "timeout-ms", accepts := isWord }]),
    ("pagination",
      [{ name := "max-response", required := true, accepts := isInt32 }, pageSize, pageToken,
        { name := "all", arity := .flag }]),
    ("resource-name", [id]),
    ("parameter-flattening",
      [content, { name := "repeated", arity := .repeatable }, { name := "nested" }])]

/-- The command of a name with the options given to it. -/
def ofGiven (name : String) (given : Given) : Option ClientCommand :=
  let int32 (name : String) : Int32 := .ofInt (((given.value? name).bind Text.readInt?).getD 0)
  let word (name : String) (fallback : Nat) : UInt64 :=
    .ofNat (((given.value? name).bind Text.readNat?).getD fallback)
  let content := given.value "content"
  let error : ErrorOptions := ⟨int32 "error-code", given.value "error-message"⟩
  match name with
  | "echo" => some (echo content error)
  | "expand" => some (expand content error)
  | "collect" => some (collect (given.values "content"))
  | "chat" => some (chat (given.values "content"))
  | "timeout" => some (timeout (word "delay-ms" 0) content error)
  | "setup-retry" =>
      some (setupRetry ((given.values "code").map fun code =>
        .ofInt ((Text.readInt? code).getD 0)))
  | "retry" => some (retry (given.value "id"))
  | "longrunning" =>
      let after := ((given.value? "after-ms").bind Text.readInt?).getD 0
      some (longrunning (.ofInt after) content error (given.has "wait") (word "poll-ms" 250))
  | "get-operation" => some (getOperation (given.value "name"))
  | "list-operations" => some (listOperations (int32 "page-size") (given.value "page-token"))
  | "cancel-operation" => some (cancelOperation (given.value "name"))
  | "delete-operation" => some (deleteOperation (given.value "name"))
  | "wait-operation" => some (waitOperation (given.value "name") (word "timeout-ms" 0))
  | "pagination" =>
      some (pagination (int32 "max-response") (int32 "page-size") (given.value "page-token")
        (given.has "all"))
  | "resource-name" => some (resourceName (given.value "id"))
  | "parameter-flattening" =>
      some (parameterFlattening content (given.values "repeated") (given.value? "nested"))
  | _ => none

/-- The options before the command. -/
def leading : List OptionSpec := [{ name := "addr" }]

/-- The address of the server if none is given. -/
def defaultAddr : String := "http://127.0.0.1:7469"

/-- The call that the arguments of a client ask for. -/
def parse (arguments : List String) : Except Stop ClientCall := do
  let parsed ← readOptions leading true [] arguments
  if parsed.escaped then throw .usage
  match parsed.operands with
  | [] => throw .usage
  | name :: rest =>
      match options.lookup name with
      | none =>
          if name = "help" && rest.all (fun topic => (options.lookup topic).isSome) then
            throw .help
          else throw .usage
      | some own =>
          let given ← readAll own false rest
          match ofGiven name given with
          | none => throw .usage
          | some command => return ⟨parsed.given.value "addr" defaultAddr, command⟩

end ClientCommand

end Rehearsal.Command
