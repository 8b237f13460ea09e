/-
What a command line asks for.

The words are read in two grammars: the options of the program itself come first, then the name of
a command, and everything after it belongs to the command.  Options act in the order in which they
are written, so a request for help is granted if nothing before it was wrong.  The files to lint
are the first group of arguments; any other argument, and any option that is not known, is
collected and refused at the end.  A double hyphen behind an equals sign takes back the value that
an option had.

Main definitions:

* `Edl.Cli.Command` — what is asked for;
* `Edl.Cli.Misuse` — why a command line is refused, and by which grammar;
* `Edl.Cli.parse` — the command of a command line.
-/

import Edl.Cli.Word
import Edl.Log
import Edl.Text.Quoted

set_option relaxedAutoImplicit false
set_option autoImplicit false

namespace Edl.Cli

/-! ### Commands and refusals -/

/-- The forms in which a report is written. -/
inductive Format where
  | text
  | json
  deriving DecidableEq, Repr

/-- The name of a form. -/
def Format.name : Format → String
  | text => "text"
  | json => "json"

/-- What the linter is asked for. -/
structure LintOptions where
  format : Format := .text
  linting : Bool := true
  files : List String := []
  deriving DecidableEq, Repr

/-- What a command line asks for.  One that takes back the level of the log, and sets no other,
asks for nothing that could be carried out. -/
inductive Command where
  | help
  | version
  | lintHelp
  | lint (level : Log.Level) (options : LintOptions)
  | withoutLevel
  deriving DecidableEq, Repr

/-- The two grammars of a command line. -/
inductive Grammar where
  | program
  | lint
  deriving DecidableEq, Repr

/-- What is wrong with a command line. -/
inductive Misuse.Cause where
  | ambiguous (word : String) (candidates : List String)
  | ignoredValue (argument value : String)
  | missingValue (argument : String)
  | invalidChoice (argument value : String) (choices : List String)
  | missingArgument (argument : String)
  | unrecognized (words : List String)
  deriving DecidableEq, Repr

/-- What is wrong with a command line, and which grammar says so. -/
structure Misuse where
  grammar : Grammar
  cause : Misuse.Cause
  deriving DecidableEq, Repr

/-- The words for what is wrong. -/
def Misuse.Cause.text : Misuse.Cause → String
  | ambiguous word candidates =>
      "ambiguous option: " ++ word ++ " could match " ++ ", ".intercalate candidates
  | ignoredValue argument value =>
      "argument " ++ argument ++ ": ignored explicit argument " ++ Text.quote value
  | missingValue argument => "argument " ++ argument ++ ": expected one argument"
  | invalidChoice argument value choices =>
      "argument " ++ argument ++ ": invalid choice: " ++ Text.quote value ++ " (choose from " ++
        ", ".intercalate (choices.map Text.quote) ++ ")"
  | missingArgument argument => "the following arguments are required: " ++ argument
  | unrecognized words => "unrecognized arguments: " ++ " ".intercalate words

/-! ### Options -/

/-- The options of the program. -/
inductive ProgramOption where
  | help
  | version
  | logLevel
  deriving DecidableEq, Repr

/-- The spellings of the options of the program. -/
def programOptions : List (String × ProgramOption) :=
  [("-h", .help), ("--help", .help), ("--version", .version), ("--log-level", .logLevel)]

/-- The options of the linter. -/
inductive LintOption where
  | help
  | format
  | disable
  deriving DecidableEq, Repr

/-- The spellings of the options of the linter. -/
def lintOptions : List (String × LintOption) :=
  [("-h", .help), ("--help", .help), ("--format", .format), ("--disable-linting", .disable)]

/-- The spellings of one option, as a refusal names it. -/
def spellings {κ : Type} [DecidableEq κ] (options : List (String × κ)) (kind : κ) : String :=
  "/".intercalate ((options.filter fun o => o.2 = kind).map Prod.fst)

/-- Whether a character is a short flag. -/
def isShortFlag {κ : Type} (options : List (String × κ)) (c : Char) : Bool :=
  options.any fun o => o.1.toList = ['-', c]

/-- One of the things that have a name, by its name. -/
def choose {α : Type} (grammar : Grammar) (argument : String) (all : List α) (name : α → String)
    (value : String) : Except Misuse α :=
  match all.find? fun a => name a == value with
  | some a => .ok a
  | none => .error ⟨grammar, .invalidChoice argument value (all.map name)⟩

/-- What `read` makes of the value of an option; of the separator, nothing. -/
def readValue {α : Type} (read : String → Except Misuse α) (value : String) :
    Except Misuse (Option α) :=
  if value = "--" then .ok none else return some (← read value)

/-- A flag carries no value. -/
def checkFlag (grammar : Grammar) (argument : String) : Option String → Except Misuse Unit
  | none => .ok ()
  | some value => .error ⟨grammar, .ignoredValue argument value⟩

/-- Words classified among the options of a grammar. -/
def classifyFor {κ : Type} (grammar : Grammar) (options : List (String × κ))
    (words : List String) : Except Misuse (List (String × Word κ)) :=
  match classifyAll options words with
  | .ok ws => .ok ws
  | .error a => .error ⟨grammar, .ambiguous a.word a.candidates⟩

/-! ### The linter's own words -/

/-- Where the reader stands with the group of files: before it, in it, or after it. -/
inductive Group where
  | before
  | inside
  | after
  deriving DecidableEq, Repr

/-- What the words read so far ask of the linter, and the words it does not know.  While `pending`,
the next word is the format. -/
structure LintState where
  options : LintOptions := {}
  group : Group := .before
  pending : Bool := false
  extras : List String := []

namespace LintState

/-- The state after an option, which ends the group of files. -/
def endGroup (s : LintState) : LintState :=
  if s.group = .inside then { s with group := .after } else s

/-- The state after a word that is not known. -/
def refuse (s : LintState) (word : String) : LintState :=
  { s with extras := s.extras ++ [word] }

/-- The state after an argument: a file as long as the group has not ended. -/
def addArgument (s : LintState) (word : String) : LintState :=
  if s.group = .after then s.refuse word
  else { s with group := .inside, options := { s.options with files := s.options.files ++ [word] } }

/-- The state after the separator, which opens the group if arguments follow, and is part of it. -/
def addSeparator (s : LintState) (word : String) (follows : Bool) : LintState :=
  match s.group, follows with
  | .before, true => { s with group := .inside }
  | .before, false => s.refuse word
  | .inside, _ => s
  | .after, _ => s.refuse word

/-- The state after the format was given; without one, the report is written as text. -/
def setFormat (s : LintState) (value : String) : Except Misuse LintState := do
  let format ← readValue
    (choose .lint (spellings lintOptions .format) [Format.text, .json] Format.name) value
  return { s with pending := false, options := { s.options with format := format.getD .text } }

end LintState

/-- Reads the words of the linter; nothing is the answer when help is asked for. -/
def readLint : List (String × Word LintOption) → LintState → Except Misuse (Option LintState)
  | [], s =>
      if s.pending then .error ⟨.lint, .missingValue (spellings lintOptions .format)⟩
      else .ok (some s)
  | (word, w) :: rest, s =>
      if s.pending then
        match w with
        | .argument => do readLint rest (← s.setFormat word)
        | _ => .error ⟨.lint, .missingValue (spellings lintOptions .format)⟩
      else
        match w with
        | .argument => readLint rest (s.addArgument word)
        | .separator => readLint rest (s.addSeparator word !rest.isEmpty)
        | .unknown => readLint rest (s.endGroup.refuse word)
        | .cluster kind more =>
            match refusedCluster? (isShortFlag lintOptions) more with
            | some value => .error ⟨.lint, .ignoredValue (spellings lintOptions kind) value⟩
            | none => .ok none
        | .option .help value => do
            checkFlag .lint (spellings lintOptions .help) value
            return none
        | .option .disable value => do
            checkFlag .lint (spellings lintOptions .disable) value
            readLint rest { s.endGroup with options := { s.options with linting := false } }
        | .option .format (some value) => do readLint rest (← s.endGroup.setFormat value)
        | .option .format none => readLint rest { s.endGroup with pending := true }

/-- The command of the words after the name of the linter. -/
def parseLint (level : Option Log.Level) (extras words : List String) :
    Except Misuse Command := do
  match ← readLint (← classifyFor .lint lintOptions words) {} with
  | none => return .lintHelp
  | some s =>
      if s.options.files.isEmpty then .error ⟨.lint, .missingArgument "files"⟩
      else if (extras ++ s.extras).isEmpty then
        match level with
        | some level => return .lint level s.options
        | none => return .withoutLevel
      else .error ⟨.program, .unrecognized (extras ++ s.extras)⟩

/-! ### The program's words -/

/-- The names of the commands. -/
def commandNames : List String :=
  ["lint"]

/-- The command that a word names, with the words after it. -/
def parseCommand (level : Option Log.Level) (extras : List String) (name : String)
    (words : List String) : Except Misuse Command := do
  let _ ← choose .program "command" commandNames id name
  parseLint level extras words

/-- The level of the log that a word names. -/
def readLevel : (value : String) → Except Misuse (Option Log.Level) :=
  readValue (choose .program (spellings programOptions .logLevel) Log.Level.all Log.Level.name)

/-- Reads the words of the program.  While `pending`, the next word is the level of the log. -/
def readProgram : List (String × Word ProgramOption) → (level : Option Log.Level) →
    (pending : Bool) → (extras : List String) → Except Misuse Command
  | [], level, pending, extras =>
      if pending then .error ⟨.program, .missingValue (spellings programOptions .logLevel)⟩
      else if !extras.isEmpty then .error ⟨.program, .unrecognized extras⟩
      else if level.isNone then .ok .withoutLevel
      else .ok .help
  | (word, w) :: rest, level, pending, extras =>
      if pending then
        match w with
        | .argument => do readProgram rest (← readLevel word) false extras
        | _ => .error ⟨.program, .missingValue (spellings programOptions .logLevel)⟩
      else
        match w with
        | .argument => parseCommand level extras word (rest.map Prod.fst)
        | .separator =>
            -- With words after it the separator is taken for the command; alone it is unknown.
            if rest.isEmpty then readProgram rest level false (extras ++ [word])
            else parseCommand level extras word (rest.map Prod.fst)
        | .unknown => readProgram rest level false (extras ++ [word])
        | .cluster kind more =>
            match refusedCluster? (isShortFlag programOptions) more with
            | some value => .error ⟨.program, .ignoredValue (spellings programOptions kind) value⟩
            | none => .ok .help
        | .option .help value => do
            checkFlag .program (spellings programOptions .help) value
            return .help
        | .option .version value => do
            checkFlag .program (spellings programOptions .version) value
            return .version
        | .option .logLevel (some value) => do readProgram rest (← readLevel value) false extras
        | .option .logLevel none => readProgram rest level true extras

/-- The command of a command line; without any, help is asked for. -/
def parse (words : List String) : Except Misuse Command := do
  readProgram (← classifyFor .program programOptions words) (some .warning) false []

end Edl.Cli
