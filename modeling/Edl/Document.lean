/-
Documents of an editor.

A document is a snapshot: its address, its text, the language it is written in, and a version that
grows by one with every edit.

Main definitions:

* `Edl.Document` — the snapshot;
* `Edl.Document.isEdl`, `Edl.Document.lineCount`, `Edl.Document.lineAt`, `Edl.Document.withText`.
-/

import Edl.Fault
import Edl.Text.Lines

set_option relaxedAutoImplicit false
set_option autoImplicit false

namespace Edl

/-- The identifier of the event description language. -/
def edlLanguage : String := "edl"

/-- A snapshot of a document. -/
structure Document where
  uri : String
  text : String
  language : String := edlLanguage
  version : Int := 0
  deriving DecidableEq, Repr

namespace Document

/-- Whether the document is written in the event description language. -/
def isEdl (d : Document) : Bool :=
  d.language == edlLanguage

/-- The number of lines. -/
def lineCount (d : Document) : Nat :=
  (Text.splitLines d.text).length

/-- The line with the given number, if the document has it. -/
def lineAt (d : Document) (line : Int) : Except Fault String :=
  match line with
  | .ofNat n =>
      match (Text.splitLines d.text)[n]? with
      | some text => .ok text
      | none => .error (.lineOutside line d.uri d.lineCount)
  | .negSucc _ => .error (.lineOutside line d.uri d.lineCount)

/-- The document after an edit. -/
def withText (d : Document) (text : String) : Document :=
  { d with text, version := d.version + 1 }

end Document

end Edl
