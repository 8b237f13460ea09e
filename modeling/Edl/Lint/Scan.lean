/-
Scanning a text with a list of rules.

The lines of a text are scanned from first to last, and each line by every rule in the order of the
list.  A rule that fails makes the whole scan fail.  With linting switched off nothing is looked
at, neither the text nor the rules.

Main definitions:

* `Edl.Lint.scanLine`, `Edl.Lint.scanLines` — the findings on a line, and on many;
* `Edl.Lint.Outcome`, `Edl.Lint.run` — linting a text under given settings;
* `Edl.Lint.validate` — the findings in a document, with the record of it for the log.
-/

import Edl.Config.Settings
import Edl.Diagnostic.Report
import Edl.Lint.RuleList
import Edl.Log

set_option relaxedAutoImplicit false
set_option autoImplicit false

namespace Edl.Lint

/-- The findings of the rules on one line, in the order of the rules. -/
def scanLine (line : String) (number : Nat) : List Rule → Except Fault (List Diagnostic)
  | [] => .ok []
  | rule :: rules => do
      let found ← rule.run line number
      let others ← scanLine line number rules
      return found ++ others

/-- The findings on lines that are numbered from `number`, in the order of the lines. -/
def scanLines (rules : List Rule) : (number : Nat) → List String → Except Fault (List Diagnostic)
  | _, [] => .ok []
  | number, line :: lines => do
      let found ← scanLine line number rules
      let others ← scanLines rules (number + 1) lines
      return found ++ others

/-- What linting a text gives: whether it was done, on how many lines, and the findings. -/
structure Outcome where
  enabled : Bool
  lineCount : Nat
  diagnostics : List Diagnostic

/-- Linting a text under given settings. -/
def run (text : String) (settings : Config.Settings := {}) (rules : List Rule := defaultRules) :
    Except Fault Outcome :=
  if settings.linting then do
    checkRules rules
    let lines := Text.splitLines text
    let diagnostics ← scanLines rules 0 lines
    return { enabled := true, lineCount := lines.length, diagnostics }
  else .ok { enabled := false, lineCount := 0, diagnostics := [] }

/-- What the log says about linting the document at an address. -/
def Outcome.record (o : Outcome) (uri : String) : Log.Record :=
  if o.enabled then .validated uri o.lineCount o.diagnostics.length else .skipped uri

/-- Linting a document: the findings, which depend on text, settings and rules only, and the record
for the log. -/
def validate (uri text : String) (settings : Config.Settings := {})
    (rules : List Rule := defaultRules) : Except Fault (List Diagnostic × Log.Record) := do
  let outcome ← run text settings rules
  return (outcome.diagnostics, outcome.record uri)

end Edl.Lint
