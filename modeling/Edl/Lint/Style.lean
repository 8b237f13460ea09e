/-
Checks of the style of a line.

* `Edl.Lint.lineTooLong` — the line has more characters than a limit;
* `Edl.Lint.mixedIndentation` — the blanks that open the line hold a tabulator and a space;
* `Edl.Lint.trailingWhitespace` — the line ends in a blank.
-/

import Edl.Lint.Rule
import Edl.Text.Blank

set_option relaxedAutoImplicit false
set_option autoImplicit false

namespace Edl.Lint

open Text

/-- The number of characters that a line may have. -/
def maxLineLength : Int := 120

/-- The line has more characters than `limit`; those beyond it are marked. -/
def lineTooLong (limit : Int) : Check := fun line =>
  if line.length ≤ limit then .ok none
  else .ok (some { template := Catalog.lineTooLong, start := limit, stop := line.length })

/-- The indentation mixes tabulators and spaces; all of it is marked. -/
def mixedIndentation : Check := fun line =>
  if (indent line).contains '\t' && (indent line).contains ' ' then
    .ok (some (.onAll Catalog.mixedIndentation (indent line)))
  else .ok none

/-- Whether the last character of a line is blank. -/
def endsInBlank (line : List Char) : Bool :=
  match line.getLast? with
  | some c => isBlank c
  | none => false

/-- The line ends in a blank; the blanks at its end are marked. -/
def trailingWhitespace : Check := fun line =>
  if endsInBlank line then
    .ok (some
      { template := Catalog.trailingWhitespace
        start := (trimEnd line).length
        stop := line.length })
  else .ok none

end Edl.Lint
