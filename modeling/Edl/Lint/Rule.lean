/-
Lint rules.

A rule looks at one line at a time and shares nothing with other rules.  It has a code, a name, a
domain and a confidence, all of which are words that a rule list has to get right
(`Edl.Lint.checkRules`), and it reports findings on a line or fails.

The built-in rules are made from *checks*: a check looks at the characters of a line and finds at
most one stretch of it to complain about.  Computing the stretch may fail, and then so does the
rule.

Main definitions:

* `Edl.Lint.Rule` — a rule;
* `Edl.Lint.Finding`, `Edl.Lint.Check` — what a check finds on a line;
* `Edl.Lint.Rule.ofCheck` — the rule that reports what a check finds.
-/

import Edl.Diagnostic.Catalog

set_option relaxedAutoImplicit false
set_option autoImplicit false

namespace Edl.Lint

/-- A rule that looks at one line at a time. -/
structure Rule where
  code : String
  name : String
  domain : String
  confidence : String
  run : (line : String) → (number : Int) → Except Fault (List Diagnostic)

/-- A stretch of a line, from `start` up to `stop`, and what is wrong with it. -/
structure Finding where
  template : Template
  start : Int
  stop : Int

/-- The stretch of a line to complain about, if there is one. -/
abbrev Check := (line : List Char) → Except Fault (Option Finding)

/-- The diagnostic of a finding on the line with the given number. -/
def Finding.place (f : Finding) (number : Int) : Except Fault Diagnostic := do
  let range ← Text.Range.onLine number f.start f.stop
  return f.template.diagnostic range

/-- The diagnostics of a check on a line. -/
def Check.report (check : Check) (line : String) (number : Int) :
    Except Fault (List Diagnostic) := do
  match ← check line.toList with
  | none => return []
  | some finding => return [← finding.place number]

theorem Check.report_of_none {check : Check} {line : String}
    (h : check line.toList = .ok none) (number : Int) : check.report line number = .ok [] := by
  rw [report, h]
  rfl

theorem Check.report_of_some {check : Check} {line : String} {f : Finding}
    (h : check line.toList = .ok (some f)) (number : Int) :
    check.report line number = (f.place number).map fun d => [d] := by
  rw [report, h]
  change (do return [← f.place number]) = _
  cases f.place number <;> rfl

/-- The rule that reports what a check finds. -/
def Rule.ofCheck (code name domain confidence : String) (check : Check) : Rule where
  code := code
  name := name
  domain := domain
  confidence := confidence
  run := check.report

/-- The finding on the last character of a line. -/
def Finding.onLast (template : Template) (line : List Char) : Finding where
  template := template
  start := (line.length : Int) - 1
  stop := line.length

/-- The finding on a whole line. -/
def Finding.onAll (template : Template) (line : List Char) : Finding where
  template := template
  start := 0
  stop := line.length

end Edl.Lint
