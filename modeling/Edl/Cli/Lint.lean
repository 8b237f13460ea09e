/-
The command that lints files.

The files are read and linted one after another.  A file that cannot be read is reported on the
side and does not keep the others from being linted.  The findings of a file are filed under the
name as it was given, so a file that is named twice is reported once.  A text that cannot name a
file at all ends the run: there is no report then, but what was said on the side before it was said.

Main definitions:

* `Edl.Cli.Reader` — how a name is turned into the address and the octets of a file;
* `Edl.Cli.Findings.add`, `Edl.Cli.lintFiles` — the findings by file, and what is said on the side;
* `Edl.Cli.textReport`, `Edl.Cli.jsonReport` — the two forms of the report;
* `Edl.Cli.Outcome`, `Edl.Cli.run` — the answer to a command line.
-/

import Edl.Cli.Usage
import Edl.Files.Tree
import Edl.Json
import Edl.Lint.Scan
import Edl.Table
import Edl.Text.LineEnd

set_option relaxedAutoImplicit false
set_option autoImplicit false

namespace Edl.Cli

/-! ### Reading -/

/-- The address and the octets of the file that a name leads to. -/
abbrev Reader := Files.Name → Except Files.Failure (String × List UInt8)

/-- Whether a text can name a file: no file has the null character in its name. -/
def isFileName (name : String) : Bool :=
  !name.toList.contains '\x00'

/-- The address and the text of the file with the given name. -/
def readText (reader : Reader) (name : String) : Except Files.Unreadable (String × String) :=
  match reader (Files.Name.ofText name) with
  | .error failure => .error (.system failure (Files.Name.ofText name))
  | .ok (uri, octets) =>
      match Text.Utf8.decode octets with
      | .error fault => .error (.encoding fault)
      | .ok text => .ok (uri, String.ofList (Text.foldLineEnds text))

/-! ### Linting -/

/-- What is said while files are linted: a file is unreadable, or something for the log. -/
inductive Remark where
  | unreadable (name : String) (why : Files.Unreadable)
  | record (r : Log.Record)

/-- The findings by file, and what was said. -/
structure Findings where
  results : Table (List Diagnostic) := .empty
  remarks : List Remark := []

/-- The findings with those of one more file. -/
def Findings.add (reader : Reader) (settings : Config.Settings) (f : Findings) (name : String) :
    Except Fault Findings :=
  if !isFileName name then .error .nullInName
  else
    match readText reader name with
    | .error why => .ok { f with remarks := f.remarks ++ [.unreadable name why] }
    | .ok (uri, text) => do
        let (found, r) ← Lint.validate uri text settings
        return { results := f.results.insert name found, remarks := f.remarks ++ [.record r] }

/-- The findings with those in the files with the given names.  The first fault ends this, and what
was found and said before is kept. -/
def lintFrom (reader : Reader) (settings : Config.Settings) (f : Findings) :
    List String → Except Fault Unit × Findings
  | [] => (.ok (), f)
  | name :: names =>
      match f.add reader settings name with
      | .ok f' => lintFrom reader settings f' names
      | .error fault => (.error fault, f)

/-- The findings in the files with the given names. -/
def lintFiles (reader : Reader) (settings : Config.Settings) (names : List String) :
    Except Fault Unit × Findings :=
  lintFrom reader settings {} names

/-! ### Reports -/

/-- The findings one on a line, and their number. -/
def textReport (results : Table (List Diagnostic)) : String :=
  let found := results.values.flatten
  let rendered := results.entries.flatMap fun (name, ds) => ds.map (·.render (some name))
  let t := tally found
  lines rendered ++
    if found.isEmpty then lines ["No issues found"]
    else
      lines ["", toString found.length ++ " issues found (" ++ toString t.errors ++ " errors, " ++
        toString t.warnings ++ " warnings, " ++ toString t.information ++ " information)"]

/-- A finding as a JSON object. -/
def jsonDiagnostic (d : Diagnostic) : Json :=
  .object [("code", .string d.code), ("message", .string d.message),
    ("severity", .string d.severity.name),
    ("range", .array [.number d.range.start.line, .number d.range.start.character,
      .number d.range.stop.line, .number d.range.stop.character]),
    ("category", .ofOption d.category), ("hint", .ofOption d.hint)]

/-- The findings as a JSON object of the files. -/
def jsonReport (results : Table (List Diagnostic)) : String :=
  lines [(Json.object (results.entries.map fun (name, ds) =>
    (name, .array (ds.map jsonDiagnostic)))).render]

/-! ### The answer to a command line -/

/-- What a run of the program leaves: its exit status, or the fault that ended it, and what it
printed. -/
structure Outcome where
  exit : Except Fault Nat
  stdout : String := ""
  stderr : String := ""

/-- The line for a remark, if it is urgent enough to be printed. -/
def Remark.line? (level : Log.Level) : Remark → Option String
  | .unreadable name why => some (name ++ ": cannot read file: " ++ why.message)
  | .record r => if level.rank ≤ r.level.rank then some r.render else none

/-- Whether a remark is about an unreadable file. -/
def Remark.isUnreadable : Remark → Bool
  | .unreadable .. => true
  | .record _ => false

/-- Two if a file could not be read, else one if there are errors, else zero. -/
def Findings.status (f : Findings) : Nat :=
  if f.remarks.any Remark.isUnreadable then 2
  else if f.results.values.any hasErrors then 1
  else 0

/-- The findings in one of the two forms. -/
def report (format : Format) (results : Table (List Diagnostic)) : String :=
  match format with
  | .text => textReport results
  | .json => jsonReport results

/-- The outcome of linting files. -/
def lint (reader : Reader) (level : Log.Level) (options : LintOptions) : Outcome :=
  let (result, f) := lintFiles reader { linting := options.linting } options.files
  let remarks := .record (.commandStarted "lint") :: f.remarks
  { exit := result.map fun _ => f.status
    stdout := match result with
      | .ok _ => report options.format f.results
      | .error _ => ""
    stderr := lines (remarks.filterMap (Remark.line? level)) }

/-- The outcome of a command line.  One that leaves the log without a level ends in a fault. -/
def run (reader : Reader) (words : List String) : Outcome :=
  match parse words with
  | .error misuse => { exit := .ok 2, stderr := misuse.text }
  | .ok .help => { exit := .ok 0, stdout := Grammar.help .program }
  | .ok .lintHelp => { exit := .ok 0, stdout := Grammar.help .lint }
  | .ok .version => { exit := .ok 0, stdout := versionText }
  | .ok .withoutLevel => { exit := .error .levelMissing }
  | .ok (.lint level options) => lint reader level options

end Edl.Cli
