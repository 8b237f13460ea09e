/-
The catalogue of findings that the built-in rules report.

An entry fixes everything about a finding but its place: code, message, hint, severity and
category.  The categories are the three domains of the rules.

Main definitions:

* `Edl.Template` — an entry of the catalogue;
* `Edl.Template.diagnostic` — the finding of an entry at a place;
* `Edl.Catalog` — the entries.
-/

import Edl.Diagnostic.Basic

set_option relaxedAutoImplicit false
set_option autoImplicit false

namespace Edl

/-- A finding without its place. -/
structure Template where
  code : String
  message : String
  hint : Option String
  severity : Severity
  category : Option String

/-- The finding of a catalogue entry at a place. -/
def Template.diagnostic (t : Template) (range : Text.Range) : Diagnostic where
  code := t.code
  message := t.message
  range := range
  severity := t.severity
  hint := t.hint
  category := t.category

namespace Catalog

/-- A line opens more blocks than it closes. -/
def missingBracket : Template where
  code := "missing-bracket"
  message := "Missing closing bracket"
  hint := some "Close every `\x7b` opened on this line with a matching `\x7d`."
  severity := .error
  category := some "syntax"

/-- The name of a declared event is not in lower case. -/
def invalidEventName : Template where
  code := "invalid-event-name"
  message := "Event names should be lowercase with underscores"
  hint := some "Rename the event to match `[a-z][a-z0-9_]*`, e.g. `user_login`."
  severity := .error
  category := some "syntax"

/-- A call that stands alone is not terminated. -/
def missingSemicolon : Template where
  code := "missing-semicolon"
  message := "Missing semicolon"
  hint := some "Terminate the call with `;`."
  severity := .warning
  category := some "syntax"

/-- A placeholder is emitted in place of an event. -/
def undefinedEvent : Template where
  code := "undefined-event"
  message := "Undefined event"
  hint := some "Emit a declared event instead of a null or undefined placeholder."
  severity := .error
  category := some "semantic"

/-- A transition leads back to the state that it leaves. -/
def selfTransition : Template where
  code := "self-transition"
  message := "Self-transitions should be explicit"
  hint := some "Declare the self-transition with an explicit trigger or remove it."
  severity := .warning
  category := some "semantic"

/-- A line has too many characters. -/
def lineTooLong : Template where
  code := "line-too-long"
  message := "Line too long (>120 characters)"
  hint := some "Split the line so it fits in 120 characters."
  severity := .information
  category := some "style"

/-- The indentation of a line holds tabulators and spaces. -/
def mixedIndentation : Template where
  code := "mixed-indentation"
  message := "Mixed tabs and spaces for indentation"
  hint := some "Indent with either tabs or spaces, not both."
  severity := .warning
  category := some "style"

/-- A line ends in blanks. -/
def trailingWhitespace : Template where
  code := "trailing-whitespace"
  message := "Trailing whitespace"
  hint := some "Remove whitespace at the end of the line."
  severity := .information
  category := some "style"

end Catalog

end Edl
