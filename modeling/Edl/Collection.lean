/-
Collections of diagnostics, by document.

A collection holds, for each document that was written to it, the findings of the last write and
the version of the document they belong to.  A write replaces the findings of its document as a
whole.  A write that belongs to an older version than the stored one is *stale* and is ignored;
a write without a version, or over one, is never stale.  A disposed collection refuses writes and
deletions, and its listeners are gone.

The operations are pure and say which documents the listeners are to be told about.

Main definitions:

* `Edl.Entry`, `Edl.Collection` — the state;
* `Edl.Collection.write`, `Edl.Collection.delete`, `Edl.Collection.clear`, `Edl.Collection.retire`.
-/

import Edl.Diagnostic.Basic
import Edl.Emitter
import Edl.Table

set_option relaxedAutoImplicit false
set_option autoImplicit false

namespace Edl

/-- The findings in a document, and the version they belong to. -/
structure Entry where
  version : Option Int
  diagnostics : List Diagnostic

/-- The findings by document; listeners are told about every change. -/
structure Collection where
  name : String
  entries : Table Entry := .empty
  emitter : Emitter String := {}
  disposed : Bool := false

namespace Collection

/-- The findings in a document; none if nothing was written for it. -/
def get (c : Collection) (uri : String) : List Diagnostic :=
  match c.entries.find? uri with
  | some e => e.diagnostics
  | none => []

/-- The version that the findings in a document belong to. -/
def versionOf (c : Collection) (uri : String) : Option Int :=
  match c.entries.find? uri with
  | some e => e.version
  | none => none

/-- A write is stale if it and the stored entry have versions and its version is the smaller. -/
def isStale (c : Collection) (uri : String) (e : Entry) : Bool :=
  match c.versionOf uri, e.version with
  | some stored, some new => new < stored
  | _, _ => false

/-- A disposed collection refuses. -/
def checkAlive (c : Collection) : Except Fault Unit :=
  if c.disposed then .error (.collectionDisposed c.name) else .ok ()

/-- The collection after a write, or nothing if the write is stale. -/
def write (c : Collection) (uri : String) (e : Entry) : Except Fault (Option Collection) := do
  c.checkAlive
  return if c.isStale uri e then none else some { c with entries := c.entries.insert uri e }

/-- The collection after a deletion, or nothing if there was nothing to delete. -/
def delete (c : Collection) (uri : String) : Except Fault (Option Collection) := do
  c.checkAlive
  return if c.entries.contains uri then some { c with entries := c.entries.erase uri } else none

/-- The collection without entries. -/
def clear (c : Collection) : Collection :=
  { c with entries := .empty }

/-- The collection after its disposal: without listeners, and refusing writes. -/
def retire (c : Collection) : Collection :=
  { c with emitter := c.emitter.clear, disposed := true }

end Collection

end Edl
