/-
Completion items at a position in a document.

Every position is offered the whole vocabulary; two snippets are added when the text of the line
before the cursor mentions an event or a state.  With the switch for completion off, nothing is
offered.

Main definitions:

* `Edl.Completion.Kind`, `Edl.Completion.Item` — what is offered;
* `Edl.Completion.vocabulary` — the items that are offered everywhere;
* `Edl.Completion.items` — the items at a position.
-/

import Edl.Config.Settings
import Edl.Document
import Edl.Vocabulary
import Edl.Text.Position
import Edl.Text.Search

set_option relaxedAutoImplicit false
set_option autoImplicit false

namespace Edl.Completion

/-- The kinds of completion items. -/
inductive Kind where
  | keyword
  | function
  | type
  | snippet
  deriving DecidableEq, Repr

/-- The word for a kind. -/
def Kind.name : Kind → String
  | keyword => "keyword"
  | function => "function"
  | type => "type"
  | snippet => "snippet"

/-- Something that can be inserted at the cursor. -/
structure Item where
  label : String
  kind : Kind
  detail : String
  documentation : Option String := none
  insertText : Option String := none
  isSnippet : Bool := false
  deriving DecidableEq, Repr

/-- The item for a keyword. -/
def keywordItem (name : String) : Item where
  label := name
  kind := .keyword
  detail := "EDL Keyword"
  documentation := some ((Vocabulary.keywordDocs.lookup name).getD Vocabulary.defaultKeywordDoc)

/-- The item for a built-in function, which inserts a call. -/
def functionItem (name : String) : Item where
  label := name
  kind := .function
  detail := "EDL Built-in Function"
  documentation := some ((Vocabulary.functionDocs.lookup name).getD Vocabulary.defaultFunctionDoc)
  insertText := some (name ++ "($1)")
  isSnippet := true

/-- The item for a type. -/
def typeItem (name : String) : Item where
  label := name
  kind := .type
  detail := "EDL Type"
  documentation := some ((Vocabulary.typeDocs.lookup name).getD Vocabulary.defaultTypeDoc)

/-- The snippet offered where events are mentioned. -/
def eventSnippet : Item where
  label := "on_trigger"
  kind := .snippet
  detail := "Event Handler Template"
  insertText := some "on_trigger($\x7b1:condition\x7d) \x7b\n\t$2\n\x7d"
  isSnippet := true

/-- The snippet offered where states are mentioned. -/
def stateSnippet : Item where
  label := "transition_to"
  kind := .snippet
  detail := "State Transition"
  insertText := some "transition_to($\x7b1:target_state\x7d)"
  isSnippet := true

/-- The items that are offered everywhere. -/
def vocabulary : List Item :=
  Vocabulary.keywords.map keywordItem ++ Vocabulary.functions.map functionItem ++
    Vocabulary.types.map typeItem

/-- The text of a line before a position; a line outside the document has none. -/
def textBefore (d : Document) (p : Text.Position) : List Char :=
  match (Text.splitLines d.text)[p.line]? with
  | some line => line.toList.take p.character
  | none => []

/-- The snippets that a text before the cursor calls for. -/
def snippets (before : List Char) : List Item :=
  (if Text.occurs ['e', 'v', 'e', 'n', 't'] before then [eventSnippet] else []) ++
    (if Text.occurs ['s', 't', 'a', 't', 'e'] before then [stateSnippet] else [])

/-- The items at a position of a document. -/
def items (d : Document) (p : Text.Position) (settings : Config.Settings := {}) : List Item :=
  if settings.intellisense then vocabulary ++ snippets (textBefore d p) else []

end Edl.Completion
