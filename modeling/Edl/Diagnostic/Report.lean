/-
Counting and rendering diagnostics.

Main definitions:

* `Edl.hasErrors` — whether some finding is an error;
* `Edl.Tally`, `Edl.tally` — how many findings there are of each of the three severities;
* `Edl.Diagnostic.render` — a finding on one line, with coordinates counted from one.
-/

import Edl.Diagnostic.Basic

set_option relaxedAutoImplicit false
set_option autoImplicit false

namespace Edl

/-- Whether some finding is an error. -/
def hasErrors (diagnostics : List Diagnostic) : Bool :=
  diagnostics.any fun d => d.severity = .error

/-- How many findings there are of each severity. -/
structure Tally where
  errors : Nat
  warnings : Nat
  information : Nat
  deriving DecidableEq, Repr

/-- The findings counted by severity; those of any other severity are not counted. -/
def tally (diagnostics : List Diagnostic) : Tally where
  errors := diagnostics.countP fun d => d.severity = .error
  warnings := diagnostics.countP fun d => d.severity = .warning
  information := diagnostics.countP fun d => d.severity = .information

/-- A finding on one line: the place, after the path if there is one, then severity, message and
code. -/
def Diagnostic.render (d : Diagnostic) (path : Option String := none) : String :=
  let place := toString (d.range.start.line + 1) ++ ":" ++ toString (d.range.start.character + 1)
  let place := match path with
    | some path => path ++ ":" ++ place
    | none => place
  place ++ ": " ++ d.severity.name ++ ": " ++ d.message ++ " [" ++ d.code ++ "]"

end Edl
