/-
Linters: keeping a collection in step with the open documents.

A linter listens for documents that are opened, changed and closed.  It scans a document of the
language when it is opened or changed, writes the findings to its collection under the version of
the document, and deletes them when the document is closed.  It also scans what is open when it is
attached.

Attaching either succeeds or leaves nothing behind: on a fault, whatever was acquired is released
again.  Disposing releases the three subscriptions and the collection, last acquired first.

Main definitions:

* `Edl.HostM.attachLinter`, `Edl.HostM.disposeLinter` — the life of a linter;
* `Edl.HostM.validate`, `Edl.HostM.revalidate` — scanning a document, or all open ones;
* `Edl.HostM.linterNotified` — what a linter does when it is told an event.
-/

import Edl.Host.Publish

set_option relaxedAutoImplicit false
set_option autoImplicit false

namespace Edl.HostM

variable {σ : Type}

/-! ### Scanning -/

/-- Scans a document with the rules of a linter, writes the findings to its collection, and answers
what the collection holds for the document then. -/
def validate (client : Client σ) (id : LinterId) (d : Document) : HostM σ (List Diagnostic) := do
  match (← get).linters.get? id.number with
  | none => return []
  | some linter => do
      let settings ← ofExcept (← get).workspace.settings
      let (found, record) ← ofExcept (Lint.validate d.uri d.text settings linter.rules)
      write record
      let _ ← writeEntry client linter.collection d.uri ⟨some d.version, found⟩
      match (← get).collection? linter.collection with
      | some c => return c.get d.uri
      | none => return []

/-- Scans every open document of the language, in the state in which it is found at the start. -/
def revalidate (client : Client σ) (id : LinterId) : HostM σ Unit := do
  (← get).workspace.documents.values.forM fun d => do
    if d.isEdl then
      let _ ← validate client id d

/-- What a linter does when it is told an event. -/
def linterNotified (client : Client σ) (id : LinterId) : Event → HostM σ Unit
  | .opened d => do
      if d.isEdl then
        let _ ← validate client id d
  | .changed d before => do
      if d.isEdl then
        write (.documentChanged d.uri before d.version)
        let _ ← validate client id d
  | .closed d => do
      match (← get).linters.get? id.number with
      | some linter => deleteEntry client linter.collection d.uri
      | none => pure ()
  | _ => pure ()

/-! ### Releasing -/

/-- Takes away the last thing that a linter acquired and still holds. -/
def popLinter (id : LinterId) : HostM σ (Option Linter.Holding) := do
  match (← get).linters.get? id.number with
  | some { held := thing :: rest, .. } => do
      modify fun h =>
        { h with linters := h.linters.modify id.number fun l => { l with held := rest } }
      return some thing
  | _ => return none

/-- Gives back one thing that a linter held. -/
def releaseLinter (client : Client σ) (id : LinterId) : Linter.Holding → HostM σ Unit
  | .channel c => modify fun h => h.release (.listener c (.linter id))
  | .collection => do
      match (← get).linters.get? id.number with
      | some linter => disposeCollection client linter.collection
      | none => pure ()

/-- Disposes a linter: everything that it still holds is released, last acquired first. -/
def disposeLinter (client : Client σ) (id : LinterId) : HostM σ Unit := do
  match (← get).linters.get? id.number with
  | some linter => do
      let fault ← drain (popLinter id) (releaseLinter client id) linter.held.length none
      throwIfSome fault
  | none => pure ()

/-! ### Attaching -/

/-- Attaches a linter with the given rules to the host.  It writes to the given collection, or to
a new one. -/
def attachLinter (client : Client σ) (rules : List Lint.Rule)
    (collection : Option CollectionId := none) : HostM σ LinterId := do
  ofExcept (Lint.checkRules rules)
  let collection ← match collection with
    | some c => pure c
    | none => newCollection edlLanguage
  let id : LinterId := ⟨(← get).linters.next⟩
  let held := [.channel .closed, .channel .changed, .channel .opened, .collection]
  modify fun h => { h with linters := h.linters.add { rules, collection, held } }
  let _ ← subscribe .opened (.linter id)
  let _ ← subscribe .changed (.linter id)
  let _ ← subscribe .closed (.linter id)
  orUndo (revalidate client id) (disposeLinter client id)
  return id

end Edl.HostM
