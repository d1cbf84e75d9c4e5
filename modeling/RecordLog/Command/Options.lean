/-! # Options on a command line

The words of a command line are options and their values, up to the first plain word.

* `Key`: the options there are, each with a long and perhaps a short spelling.
* `Word.ofString`: a word by its dashes.
* `readOptions`: reads words as options of one level.  An option that is unknown there, lacks its
  value, has a value it does not take or is given twice is a misuse.
-/

namespace RecordLog.Command

/-- Why words lead to no command to run. -/
inductive Stop where
  /-- The user asked how to use the program. -/
  | help
  /-- The user asked for the version of the program. -/
  | version
  /-- The words make no sense. -/
  | misuse
  deriving DecidableEq, Repr

/-! ## The options there are -/

/-- An option. -/
inductive Key where
  | log
  | sync
  | user
  | msg
  | field
  | json
  | help
  | version
  deriving DecidableEq, Repr

namespace Key

/-- The name behind two dashes. -/
def long : Key → String
  | log => "log"
  | sync => "sync"
  | user => "user"
  | msg => "msg"
  | field => "field"
  | json => "json"
  | help => "help"
  | version => "version"

/-- The letter behind one dash. -/
def short? : Key → Option Char
  | log => some 'l'
  | user => some 'u'
  | msg => some 'm'
  | field => some 'f'
  | help => some 'h'
  | version => some 'V'
  | sync | json => none

/-- A value belongs to the option. -/
def takesValue : Key → Bool
  | log | user | msg | field => true
  | sync | json | help | version => false

/-- The option may be given more than once. -/
def repeats : Key → Bool
  | field => true
  | _ => false

/-- The option ends the reading of words as soon as it is met. -/
def stop? : Key → Option Stop
  | help => some .help
  | version => some .version
  | _ => none

end Key

/-! ## Words -/

/-- A word of a command line by its dashes. -/
inductive Word where
  /-- Two dashes alone: only plain words follow. -/
  | dashes
  /-- Two dashes and a name, perhaps with a value behind an equals sign. -/
  | long (name : String) (value? : Option String)
  /-- One dash and letters. -/
  | short (letters : List Char)
  /-- Anything else, a single dash included. -/
  | plain (text : String)
  deriving DecidableEq, Repr

/-- The text before the first equals sign, and the text behind it if there is one. -/
def splitAtEquals (text : List Char) : String × Option String :=
  match text.span (· != '=') with
  | (before, _ :: after) => (String.ofList before, some (String.ofList after))
  | (before, []) => (String.ofList before, none)

/-- A word by its dashes. -/
def Word.ofString (word : String) : Word :=
  match word.toList with
  | ['-', '-'] => .dashes
  | '-' :: '-' :: text =>
    let (name, value?) := splitAtEquals text
    .long name value?
  | ['-'] => .plain word
  | '-' :: letters => .short letters
  | _ => .plain word

/-! ## Options given -/

/-- The options met so far in order, with the empty text for those without a value, and the last
one as long as nothing was met behind it: its value may still be to come. -/
structure Given where
  settled : List (Key × String) := []
  pending : Option (Key × Option String) := none
  deriving DecidableEq, Repr

namespace Given

/-- The option was met. -/
def has (given : Given) (key : Key) : Bool :=
  given.settled.any (·.1 == key)

/-- The values of an option, in order. -/
def values (given : Given) (key : Key) : List String :=
  (given.settled.filter (·.1 == key)).map Prod.snd

/-- The value of an option that may be given once. -/
def value? (given : Given) (key : Key) : Option String :=
  (given.values key).head?

/-- Adds an option; one that may be given once must not be there. -/
def add (given : Given) (key : Key) (value : String) : Except Stop Given :=
  if given.has key && !key.repeats then .error .misuse
  else .ok { given with settled := given.settled ++ [(key, value)] }

/-- Adds the option that was last met, which must have its value by now. -/
def settle (given : Given) : Except Stop Given :=
  match given.pending with
  | none => .ok given
  | some (_, none) => .error .misuse
  | some (key, some value) => add { given with pending := none } key value

/-- Meets an option, with the value that is written in the same word. -/
def meet (given : Given) (key : Key) (value? : Option String) : Except Stop Given := do
  if !key.takesValue && value?.isSome then throw .misuse
  let given ← given.settle
  match key.stop?, key.takesValue, value? with
  | some stop, _, _ => throw stop
  | none, true, none => return { given with pending := some (key, none) }
  | none, _, value? => given.add key (value?.getD "")

/-- Meets options by their letters.  What follows the letter of an option that takes a value is
that value, less an equals sign in front. -/
def meetLetters (keys : List Key) (given : Given) : List Char → Except Stop Given
  | [] => .ok given
  | letter :: rest =>
    match keys.find? (·.short? == some letter) with
    | none => .error .misuse
    | some key =>
      if key.takesValue then
        match rest with
        | [] => given.meet key none
        | '=' :: value => given.meet key (some (String.ofList value))
        | value => given.meet key (some (String.ofList value))
      else do meetLetters keys (← given.meet key none) rest

end Given

/-- Reads words as options of one level, up to the first plain word that is no value.  The word and
what follows it are left over. -/
def readOptions (keys : List Key) (given : Given) :
    List String → Except Stop (Given × List String)
  | [] => .ok (given, [])
  | word :: rest =>
    match Word.ofString word with
    | .dashes => if rest.isEmpty then .ok (given, []) else .error .misuse
    | .long name value? =>
      match keys.find? (·.long == name) with
      | none => .error .misuse
      | some key => do readOptions keys (← given.meet key value?) rest
    | .short letters => do readOptions keys (← given.meetLetters keys letters) rest
    | .plain text =>
      match given.pending with
      | some (key, none) => readOptions keys { given with pending := some (key, some text) } rest
      | _ => .ok (given, word :: rest)

end RecordLog.Command
