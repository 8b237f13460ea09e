/-
The workspace of an editor: open documents, the active one, and the configuration.

All operations are pure.  An operation that is refused changes nothing; one that is accepted gives
the workspace after it together with what listeners are to be told.  The configuration is kept
flat, under dotted keys, and can always be read as settings: an update that would make it
unreadable is refused.

Main definitions:

* `Edl.Workspace` — the state;
* `Edl.Workspace.create`, `Edl.Workspace.settings` — the configuration at the start, and the
  settings that it gives;
* `Edl.Workspace.openDocument`, `Edl.Workspace.changeDocument`, `Edl.Workspace.closeDocument`,
  `Edl.Workspace.setActive`, `Edl.Workspace.updateConfiguration` — the operations;
* `Edl.Workspace.completions`, `Edl.Workspace.hover` — help for an open document.
-/

import Edl.Config.Flatten
import Edl.Completion
import Edl.Hover

set_option relaxedAutoImplicit false
set_option autoImplicit false

namespace Edl

/-- Open documents in order of opening, the address of the active one, and the configuration. -/
structure Workspace where
  documents : Table Document := .empty
  active : Option String := none
  configuration : Table Config.Value := .empty

namespace Workspace

/-! ### Configuration -/

/-- The settings that the configuration gives. -/
def settings (w : Workspace) : Except Fault Config.Settings :=
  Config.settings w.configuration

/-- The workspace without documents under a configuration that can be read. -/
def create (entries : List (String × Config.Value)) : Except Fault Workspace := do
  let configuration := Config.flatten entries
  let _ ← Config.settings configuration
  return { configuration }

/-- The workspace after an update of its configuration, and the keys whose value changed. -/
def updateConfiguration (w : Workspace) (entries : List (String × Config.Value)) :
    Except Fault (Workspace × List String) := do
  let updates := Config.flatten entries
  let configuration := w.configuration.override updates
  let _ ← Config.settings configuration
  return ({ w with configuration }, Config.changedKeys w.configuration updates)

/-! ### Documents -/

/-- The open document at an address. -/
def document (w : Workspace) (uri : String) : Except Fault Document :=
  match w.documents.find? uri with
  | some d => .ok d
  | none => .error (.documentNotOpen uri)

/-- The active document, if there is one. -/
def activeDocument (w : Workspace) : Option Document := do
  let uri ← w.active
  w.documents.find? uri

/-- The workspace with one more document, which becomes the active one. -/
def openDocument (w : Workspace) (uri text language : String) :
    Except Fault (Workspace × Document) :=
  if w.documents.contains uri then .error (.documentOpen uri)
  else
    let d : Document := { uri, text, language }
    .ok ({ w with documents := w.documents.insert uri d, active := some uri }, d)

/-- The workspace with the text of a document replaced; the document before and after. -/
def changeDocument (w : Workspace) (uri text : String) :
    Except Fault (Workspace × Document × Document) := do
  let before ← w.document uri
  let after := before.withText text
  return ({ w with documents := w.documents.insert uri after }, before, after)

/-- The workspace without a document; if it was the active one, none is. -/
def closeDocument (w : Workspace) (uri : String) : Except Fault (Workspace × Document) := do
  let d ← w.document uri
  let active := if w.active = some uri then none else w.active
  return ({ w with documents := w.documents.erase uri, active }, d)

/-- The workspace with another active document, or none. -/
def setActive (w : Workspace) : (uri : Option String) → Except Fault Workspace
  | none => .ok { w with active := none }
  | some uri => do
      let _ ← w.document uri
      return { w with active := some uri }

/-! ### Help -/

/-- The completion items at a position of an open document. -/
def completions (w : Workspace) (uri : String) (p : Text.Position) :
    Except Fault (List Completion.Item) := do
  let d ← w.document uri
  if d.isEdl then return Completion.items d p (← w.settings) else return []

/-- The explanation of the word at a position of an open document. -/
def hover (w : Workspace) (uri : String) (p : Text.Position) : Except Fault (Option Hover) := do
  let d ← w.document uri
  if d.isEdl then Hover.at? d p else return none

end Workspace

end Edl
