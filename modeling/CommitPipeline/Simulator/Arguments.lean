import CommitPipeline.Text.Decimal

/-!
# Command line of the simulator

The arguments are read from left to right; the first one that is wrong, or that asks for the
version or for help, settles the matter. An option takes its value from the same argument, behind
an equals sign, or from the next one, and is given at most once.
-/

namespace CommitPipeline.Simulator

/-- The options that take a value. -/
inductive Setting where
  | rounds
  | commitDelayMs
  | retain
  | maxRounds
  | dataDir
  deriving DecidableEq, Repr

/-- The name of an option behind its two dashes. -/
def Setting.name : Setting → String
  | rounds => "rounds"
  | commitDelayMs => "commit-delay-ms"
  | retain => "retain"
  | maxRounds => "max-rounds-per-commit"
  | dataDir => "data-dir"

/-- All options that take a value. -/
def Setting.all : List Setting := [rounds, commitDelayMs, retain, maxRounds, dataDir]

/-- What the command line asks for, option by option. -/
structure Arguments where
  /-- How many blocks to apply. -/
  rounds : Option UInt64 := none
  /-- How long after a block its round is reported. -/
  commitDelayMs : Option UInt64 := none
  /-- How many rounds the block tail keeps. -/
  retain : Option UInt64 := none
  /-- The most rounds of a cycle. -/
  maxRounds : Option UInt64 := none
  /-- The directory of the database; without one the database is in memory. -/
  dataDir : Option String := none
  /-- How often more of the log was asked for. -/
  verbosity : Nat := 0
  deriving DecidableEq, Repr

/-- What is wrong with a command line. -/
inductive UsageError where
  /-- An argument is not known. -/
  | unexpected (argument : String)
  /-- An option has no value. -/
  | missingValue (option : String)
  /-- The value of an option cannot be read. -/
  | badValue (option value : String)
  /-- An option is given twice. -/
  | repeated (option : String)
  /-- A flag is given a value. -/
  | superfluousValue (flag : String)
  deriving DecidableEq, Repr

/-- The text of a usage error. -/
def UsageError.message : UsageError → String
  | unexpected argument => s!"error: unexpected argument '{argument}' found"
  | missingValue option => s!"error: a value is required for '--{option}' but none was supplied"
  | badValue option value => s!"error: invalid value '{value}' for '--{option}'"
  | repeated option => s!"error: the argument '--{option}' cannot be used multiple times"
  | superfluousValue flag => s!"error: unexpected value for '--{flag}' found; no more were expected"

/-- What to do after the command line is read. -/
inductive Request where
  | run (arguments : Arguments)
  | version
  | help
  | misuse (error : UsageError)
  deriving DecidableEq, Repr

/-- Sets an option that has not been set, reading its value. -/
def setOnce {α : Type} (name : String) (old : Option α) (read : String → Option α)
    (value : String) : Except UsageError (Option α) :=
  match old, read value with
  | some _, _ => .error (.repeated name)
  | none, none => .error (.badValue name value)
  | none, some a => .ok (some a)

/-- Reads a path, which is not empty. -/
def readPath (text : String) : Option String := if text = "" then none else some text

/-- Gives an option its value. -/
def Arguments.set (a : Arguments) (s : Setting) (value : String) :
    Except UsageError Arguments :=
  match s with
  | .rounds => (setOnce s.name a.rounds Decimal.word? value).map ({ a with rounds := · })
  | .commitDelayMs =>
    (setOnce s.name a.commitDelayMs Decimal.word? value).map ({ a with commitDelayMs := · })
  | .retain => (setOnce s.name a.retain Decimal.word? value).map ({ a with retain := · })
  | .maxRounds => (setOnce s.name a.maxRounds Decimal.word? value).map ({ a with maxRounds := · })
  | .dataDir => (setOnce s.name a.dataDir readPath value).map ({ a with dataDir := · })

/-- What kind of argument a text is. -/
inductive Token where
  /-- Nothing but two dashes. -/
  | separator
  /-- A name behind two dashes, with the value behind an equals sign if there is one. -/
  | long (name : String) (value : Option String)
  /-- Letters behind one dash. -/
  | short (letters : List Char)
  /-- Anything else. -/
  | plain (text : String)
  deriving DecidableEq, Repr

/-- The token of an argument. -/
def Token.ofString (text : String) : Token :=
  match text.toList with
  | ['-', '-'] => separator
  | '-' :: '-' :: rest =>
    let name := String.ofList (rest.takeWhile (· ≠ '='))
    match rest.dropWhile (· ≠ '=') with
    | [] => long name none
    | _ :: value => long name (some (String.ofList value))
  | '-' :: c :: rest => short (c :: rest)
  | _ => plain text

/-- Reads letters behind one dash: `v` asks for more of the log. -/
def readLetters (a : Arguments) : List Char → Except Request Arguments
  | [] => .ok a
  | 'v' :: rest => readLetters { a with verbosity := a.verbosity + 1 } rest
  | 'V' :: _ => .error .version
  | 'h' :: _ => .error .help
  | c :: _ => .error (.misuse (.unexpected (String.ofList ['-', c])))

/-- Reads a flag that takes no value. -/
def readFlag (a : Arguments) (name : String) (value : Option String) :
    Except Request Arguments :=
  match name, value with
  | "verbose", none => .ok { a with verbosity := a.verbosity + 1 }
  | "version", none => .error .version
  | "help", none => .error .help
  | "verbose", some _ | "version", some _ | "help", some _ =>
    .error (.misuse (.superfluousValue name))
  | _, _ => .error (.misuse (.unexpected ("--" ++ name)))

/-- Reads a command line, starting from what was read so far. -/
def Arguments.readFrom (a : Arguments) : List String → Request
  | [] => .run a
  | argument :: rest =>
    match Token.ofString argument with
    | .separator =>
      match rest with
      | [] => .run a
      | extra :: _ => .misuse (.unexpected extra)
    | .plain text => .misuse (.unexpected text)
    | .short letters =>
      match readLetters a letters with
      | .error request => request
      | .ok a => a.readFrom rest
    | .long name value =>
      match Setting.all.find? (fun s => s.name = name) with
      | none =>
        match readFlag a name value with
        | .error request => request
        | .ok a => a.readFrom rest
      | some s =>
        match value, rest with
        | some value, rest =>
          match a.set s value with
          | .error e => .misuse e
          | .ok a => a.readFrom rest
        | none, [] => .misuse (.missingValue name)
        | none, value :: rest =>
          match Token.ofString value with
          | .plain value =>
            match a.set s value with
            | .error e => .misuse e
            | .ok a => a.readFrom rest
          | _ => .misuse (.missingValue name)

/-- Reads a command line. -/
def Request.ofArguments (arguments : List String) : Request :=
  ({} : Arguments).readFrom arguments

end CommitPipeline.Simulator
