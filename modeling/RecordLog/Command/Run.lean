import RecordLog.Command.Invocation
import RecordLog.Log.File
import RecordLog.Record.Json

/-! # Doing what a command line asks for

A command opens the log, does what it is asked for and prints as it goes.  An error ends it, with
what was printed so far.

* `Request.run`: one request to a log.
* `run`: the words of a command line.
* `Outcome`: what is left of a command when it has ended.
-/

namespace RecordLog.Command

/-- What is left of a command: its exit status, what it printed, and the error that ended it. -/
structure Outcome where
  exit : Nat
  stdout : String := ""
  failure : Option Error := none
  deriving DecidableEq, Repr

variable {m : Type → Type} [Monad m]

/-- Commands print to a text that grows. -/
abbrev PrintingT (m : Type → Type) := StateT String m

/-- Prints a text. -/
def print (text : String) : ExceptT Error (PrintingT m) Unit :=
  modify (· ++ text)

/-- Prints a text and ends the line. -/
def printLine (text : String) : ExceptT Error (PrintingT m) Unit :=
  print (text ++ "\n")

/-! ## Posting -/

/-- A field given as `name=value`; the value may hold further equals signs. -/
def fieldOfArgument (argument : String) : Except Error (String × String) :=
  match splitAtEquals argument.toList with
  | (name, some value) => .ok (name, value)
  | (_, none) => .error (.config ("expected KEY=VALUE, got " ++ Text.quoted argument))

/-- The record of a user's message and of fields, of which the last one for a name stands. -/
def postRecord (user msg : String) (fields : List String) : Except Error Record := do
  let record := (Record.insert ∅ "user" user).insert "msg" msg
  let fields ← fields.mapM fieldOfArgument
  return fields.foldl (fun record (name, value) => record.insert name value) record

/-- Adds a record and shows the line written. -/
def post (log : Log (PrintingT m)) (user msg : String) (fields : List String) :
    ExceptT Error (PrintingT m) Unit := do
  let record ← postRecord user msg fields
  let line ← log.write record
  printLine "Message Posted:"
  print (Utf8.decodeLossy line)

/-! ## Listing -/

/-- Shows the records that a scan kept, as they are written or as JSON. -/
def showReport (report : ScanReport) (ofUser json : Bool) : ExceptT Error (PrintingT m) Unit := do
  if report.isEmpty then
    if report.keptNone && ofUser then
      printLine "This user has no comments."
    else
      printLine "No comments."
  else if json then
    printLine (Record.toPrettyJsonArray report.records)
  else
    for record in report.records do
      printLine (Utf8.decodeLossy (← record.encode))

/-- Shows the records of one user or of all. -/
def list (log : Log (PrintingT m)) (user? : Option String) (json : Bool) :
    ExceptT Error (PrintingT m) Unit := do
  let report ← match user? with
    | some user => log.scanField "user" user
    | none => log.scan fun _ => true
  showReport report user?.isSome json

/-! ## Statistics -/

/-- Shows what the log is made of. -/
def stats (log : Log (PrintingT m)) : ExceptT Error (PrintingT m) Unit := do
  let statistics ← log.statistics
  printLine ("records:       " ++ toString statistics.records)
  printLine ("total bytes:   " ++ toString statistics.totalBytes)
  printLine ("record bytes:  " ++ toString statistics.recordBytes)
  printLine ("garbage bytes: " ++ toString statistics.garbageBytes)

/-! ## Commands -/

/-- Does what is asked for with a log. -/
def Request.run (log : Log (PrintingT m)) : Request → ExceptT Error (PrintingT m) Unit
  | .post user msg fields => Command.post log user msg fields
  | .list user? json => Command.list log user? json
  | .stats => Command.stats log

variable [Disk m]

/-- Opens the log and does what is asked for. -/
def Invocation.run (invocation : Invocation) : ExceptT Error (PrintingT m) Unit := do
  let file ← LogFile.open invocation.config.logPath invocation.config.sync
  invocation.request.run file.log

/-- What is left of a command that printed a text and ended well or with an error. -/
def Outcome.ofResult : Except Error Unit × String → Outcome
  | (.ok (), stdout) => { exit := 0, stdout }
  | (.error e, stdout) => { exit := 1, stdout, failure := some e }

/-- Runs the words of a command line.  Nothing is opened unless they ask for something to do. -/
def run (words : List String) : m Outcome :=
  match Invocation.ofWords words with
  | .ok invocation => Outcome.ofResult <$> invocation.run.run.run ""
  | .error .help => return { exit := 0 }
  | .error .version => return { exit := 0, stdout := "postlog " ++ version ++ "\n" }
  | .error .misuse => return { exit := 2 }

end RecordLog.Command
