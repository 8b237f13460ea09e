/-
Diagnostics: what is wrong, where, and how badly.

Three severities have a meaning of their own; a rule from outside may use any other word, which is
carried along as it is.

Main definitions:

* `Edl.Severity` — the severities and their names;
* `Edl.Diagnostic` — one finding in a text.
-/

import Edl.Text.Position

set_option relaxedAutoImplicit false
set_option autoImplicit false

namespace Edl

/-- How serious a finding is. -/
inductive Severity where
  | error
  | warning
  | information
  | other (name : String)
  deriving DecidableEq

namespace Severity

/-- The word for a severity. -/
def name : Severity → String
  | error => "error"
  | warning => "warning"
  | information => "information"
  | other name => name

/-- The severity that a word names. -/
def ofName (name : String) : Severity :=
  if name = "error" then error
  else if name = "warning" then warning
  else if name = "information" then information
  else other name

/-- Every word survives being read as a severity. -/
@[simp] theorem name_ofName (s : String) : (ofName s).name = s := by
  rw [ofName]
  split
  · exact Eq.symm ‹_›
  · split
    · exact Eq.symm ‹_›
    · split
      · exact Eq.symm ‹_›
      · rfl

end Severity

/-- One finding in a text. -/
structure Diagnostic where
  code : String
  message : String
  range : Text.Range
  severity : Severity := .error
  hint : Option String := none
  category : Option String := none
  deriving DecidableEq

end Edl
