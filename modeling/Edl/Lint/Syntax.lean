/-
Checks of the syntax of a line.

* `Edl.Lint.missingBracket` — the line opens more blocks than it closes; the count is per line, so
  a block that is continued below is reported too;
* `Edl.Lint.invalidEventName` — the first event declared on the line has a name that is not in
  lower case;
* `Edl.Lint.missingSemicolon` — the line is nothing but a call of one of the statement functions,
  and has no semicolon.
-/

import Edl.Lint.Rule
import Edl.Text.Blank
import Edl.Text.Search

set_option relaxedAutoImplicit false
set_option autoImplicit false

namespace Edl.Lint

open Text

/-! ### Brackets -/

/-- More blocks are opened than closed. -/
def missingBracket : Check := fun line =>
  if line.count '{' ≤ line.count '}' then .ok none
  else .ok (some (.onLast Catalog.missingBracket line))

/-! ### Names -/

/-- The finding on the leftmost place where a name occurs in a line.  This may be to the left of the
place where the name was recognised, so it is looked for anew; in a line without the name there is
no such place. -/
def Finding.onName (template : Template) (name line : List Char) : Except Fault Finding :=
  match indexOf? name line with
  | none => .error .textNotFound
  | some start => .ok { template, start, stop := start + name.length }

/-- The check of the first name that is recognised on a line. -/
def Check.ofName (recognise : List Char → Option (List Char)) (isBad : List Char → Bool)
    (template : List Char → Template) : Check := fun line =>
  match firstMatch recognise line with
  | none => .ok none
  | some name =>
      if isBad name then (Finding.onName (template name) name line).map some else .ok none

/-! ### Event names -/

/-- The name that a declaration `event name` at the start of a text declares. -/
def declaredEvent? (text : List Char) : Option (List Char) :=
  match after? ['e', 'v', 'e', 'n', 't'] text with
  | none => none
  | some rest =>
      if indent rest = [] || word (trimStart rest) = [] then none
      else some (word (trimStart rest))

/-- Event names start with a lower-case letter and hold lower-case letters, digits and
underscores. -/
def isEventName : List Char → Bool
  | [] => false
  | c :: rest => c.isLower && rest.all fun d => d.isLower || d.isDigit || d == '_'

/-- The first declared event has a bad name. -/
def invalidEventName : Check :=
  .ofName declaredEvent? (fun name => !isEventName name) fun _ => Catalog.invalidEventName

/-! ### Semicolons -/

/-- The functions whose calls are statements. -/
def statementFunctions : List (List Char) :=
  [['e', 'm', 'i', 't'], ['l', 'i', 's', 't', 'e', 'n'],
   ['s', 'c', 'h', 'e', 'd', 'u', 'l', 'e'], ['d', 'e', 'l', 'a', 'y'],
   ['c', 'a', 'n', 'c', 'e', 'l']]

/-- A parenthesised argument list, up to its first closing parenthesis, and then only blanks. -/
def isArguments : List Char → Bool
  | '(' :: rest =>
      match rest.dropWhile (· != ')') with
      | _ :: tail => tail.all isBlank
      | [] => false
  | _ => false

/-- A call of one of the statement functions, and nothing else. -/
def isStatement (text : List Char) : Bool :=
  statementFunctions.any fun name =>
    match after? name text with
    | some rest => isArguments (trimStart rest)
    | none => false

/-- A statement stands alone on its line and is not terminated. -/
def missingSemicolon : Check := fun line =>
  if line.contains ';' || !isStatement (trim line) then .ok none
  else .ok (some (.onLast Catalog.missingSemicolon line))

end Edl.Lint
