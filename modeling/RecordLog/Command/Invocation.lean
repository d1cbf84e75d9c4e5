import RecordLog.Command.Options
import RecordLog.Config

/-! # What a command line asks for

* `Request`: the three things that can be done with a log.
* `Invocation.ofWords`: the request that words make, and the settings to do it with.
-/

namespace RecordLog.Command

/-- What to do with a log. -/
inductive Request where
  /-- Add a record of a user's message and of fields given as `name=value`. -/
  | post (user msg : String) (fields : List String)
  /-- Print the records, of one user or of all, as they are written or as JSON. -/
  | list (user? : Option String) (json : Bool)
  /-- Print what the log is made of. -/
  | stats
  deriving DecidableEq, Repr

/-- A request, and the settings to do it with. -/
structure Invocation where
  config : Config
  request : Request
  deriving DecidableEq, Repr

/-- Words that must all be options of one level. -/
def optionsOnly (keys : List Key) (words : List String) : Except Stop Given := do
  let (given, rest) ← readOptions keys {} words
  if rest.isEmpty then given.settle else throw .misuse

/-- An option that must be given. -/
def required (given : Given) (key : Key) : Except Stop String :=
  match given.value? key with
  | some value => .ok value
  | none => .error .misuse

/-- The names of the commands. -/
def commands : List String :=
  ["post", "list", "stats", "help"]

/-- The request that a command's name and the words behind it make. -/
def Request.ofWords (command : String) (words : List String) : Except Stop Request :=
  match command with
  | "post" => do
    let given ← optionsOnly [.user, .msg, .field, .help] words
    return .post (← required given .user) (← required given .msg) (given.values .field)
  | "list" => do
    let given ← optionsOnly [.user, .json, .help] words
    return .list (given.value? .user) (given.has .json)
  | "stats" => do
    let _ ← optionsOnly [.help] words
    return .stats
  | "help" =>
    match words with
    | [] => throw .help
    | [topic] => throw (if commands.contains topic then .help else .misuse)
    | _ => throw .misuse
  | _ => throw .misuse

/-- The settings that options in front of the command make. -/
def configOf (given : Given) : Config :=
  let config : Config := {}
  { logPath := (given.value? .log).elim config.logPath Path.mk
    sync := if given.has .sync then .eachAppend else config.sync }

/-- The request that words make, and the settings to do it with.  An option in front of the command
whose value is a word of its own is looked at after the command. -/
def Invocation.ofWords (words : List String) : Except Stop Invocation := do
  let (given, rest) ← readOptions [.log, .sync, .help, .version] {} words
  match rest with
  | [] => throw .misuse
  | command :: words =>
    let request ← Request.ofWords command words
    return { config := configOf (← given.settle), request }

end RecordLog.Command
