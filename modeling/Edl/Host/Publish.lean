/-
Changing a collection and telling its observers.

Every change of a collection is carried out first and told afterwards, one document at a time, to
the observers that are there when the document's turn comes.  An observer that fails stops the
telling, and what follows it in the operation, but does not undo the change.  The numbers of
collections come from `Edl.HostM.newCollection`, so there is a collection under each of them.

Main definitions:

* `Edl.HostM.newCollection` — adding a collection to the host;
* `Edl.HostM.writeEntry`, `Edl.HostM.deleteEntry`, `Edl.HostM.clearEntries`,
  `Edl.HostM.disposeCollection` — the operations on it.
-/

import Edl.Host.Basic

set_option relaxedAutoImplicit false
set_option autoImplicit false

namespace Edl.HostM

variable {σ : Type}

/-- Adds a collection without entries. -/
def newCollection (name : String) : HostM σ CollectionId := do
  let id : CollectionId := ⟨(← get).collections.next⟩
  modify fun h => { h with collections := h.collections.add { name } }
  return id

/-- Tells the observers of a collection that the entry of a document changed. -/
def publish (client : Client σ) (id : CollectionId) (uri : String) : HostM σ Unit := do
  match (← get).collection? id with
  | some c => c.emitter.listeners.forM fun name => client.notify name (.diagnostics uri)
  | none => pure ()

/-- Writes the entry of a document; answers whether the write was accepted. -/
def writeEntry (client : Client σ) (id : CollectionId) (uri : String) (e : Entry) :
    HostM σ Bool := do
  match (← get).collection? id with
  | none => return false
  | some c =>
      match ← ofExcept (c.write uri e) with
      | none => return false
      | some c' => do
          modify fun h => h.setCollection id c'
          publish client id uri
          return true

/-- Deletes the entry of a document. -/
def deleteEntry (client : Client σ) (id : CollectionId) (uri : String) : HostM σ Unit := do
  match (← get).collection? id with
  | none => pure ()
  | some c =>
      match ← ofExcept (c.delete uri) with
      | none => pure ()
      | some c' => do
          modify fun h => h.setCollection id c'
          publish client id uri

/-- Deletes all entries, and then tells the observers about each. -/
def clearEntries (client : Client σ) (id : CollectionId) : HostM σ Unit := do
  match (← get).collection? id with
  | none => pure ()
  | some c => do
      modify fun h => h.setCollection id c.clear
      c.entries.keys.forM fun uri => publish client id uri

/-- Disposes a collection, the first time: clears it, and then lets go of its observers. -/
def disposeCollection (client : Client σ) (id : CollectionId) : HostM σ Unit := do
  match (← get).collection? id with
  | none => pure ()
  | some c =>
      if c.disposed then pure ()
      else do
        clearEntries client id
        modify fun h =>
          { h with collections := h.collections.modify id.number Collection.retire }

end Edl.HostM
