import RecordLog.Command.Run

/-! # The program

The file operations of the system, and the entry point: what a command printed goes to the standard
output, and the error that ended it to the standard error.
-/

namespace RecordLog

/-- The number and the wording that the system gives an error, if it has them. -/
def systemError? : IO.Error → Option (UInt32 × String)
  | .alreadyExists _ number text | .noFileOrDirectory _ number text
  | .inappropriateType _ number text | .noSuchThing _ number text
  | .invalidArgument _ number text | .permissionDenied _ number text
  | .resourceExhausted _ number text | .interrupted _ number text
  | .illegalOperation number text | .unsupportedOperation number text
  | .hardwareFault number text | .resourceBusy number text
  | .otherError number text => some (number, text)
  | _ => none

/-- An error of the system as an error of a log. -/
def IoError.ofSystem (e : IO.Error) : IoError :=
  match systemError? e with
  | some (2, _) => .notFound
  | some (17, _) => .alreadyExists
  | some (20, _) => .notADirectory
  | some (21, _) => .isADirectory
  | some (36, _) => .nameTooLong
  | some (number, text) => .other (text ++ " (os error " ++ toString number ++ ")")
  | none => .other (toString e)

/-- An action of the system on a path, with its errors as values. -/
def guarded {α : Type} (p : Path) (action : IO α) : ExceptT IoError IO α := do
  p.check
  ExceptT.mk do
    match ← action.toBaseIO with
    | .ok a => return .ok a
    | .error e => return .error (.ofSystem e)

/-- The file operations of the system.  A file is opened for reading and writing first, which fails
where it is missing, because opening it for appending would make it.  Bytes are handed to the
system before an operation ends, under either policy; there is no call to wait for the disk. -/
instance : Disk IO where
  makeDirectory p := guarded p (IO.FS.createDir p.text)
  isDirectory p := do ((← IO.currentDir) / p.text).isDir
  create p := guarded p (discard (IO.FS.Handle.mk p.text .append))
  append p _ bytes := guarded p do
    discard (IO.FS.Handle.mk p.text .readWrite)
    let file ← IO.FS.Handle.mk p.text .append
    file.write bytes.toByteArray
    file.flush
  read p := guarded p do return (← IO.FS.readBinFile p.text).toList

/-- How to use the program. -/
def usage : String :=
  "Usage: postlog [-l|--log PATH] [--sync] <COMMAND>\n" ++
  "\n" ++
  "Commands:\n" ++
  "  post -u|--user USER -m|--msg TEXT [-f|--field KEY=VALUE]...\n" ++
  "  list [-u|--user USER] [--json]\n" ++
  "  stats\n"

end RecordLog

open RecordLog in
/-- Runs the words of a command line. -/
def main (words : List String) : IO UInt32 := do
  let outcome : Command.Outcome ← Command.run words
  IO.print outcome.stdout
  match Command.Invocation.ofWords words with
  | .error .help => IO.print usage
  | .error .misuse => IO.eprint usage
  | _ => pure ()
  if let some e := outcome.failure then IO.eprintln ("ERROR " ++ e.message)
  return UInt32.ofNat outcome.exit
