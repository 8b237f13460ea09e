/-
A workspace and the diagnostics of its documents.

A host on which one service is alone does what a much smaller machine does, whose state is a
workspace and the diagnostic collection of the service.  Each request changes the workspace, and the
collection follows by scanning a list of documents or by forgetting one.  This module describes the
machine on its own; that hosts behave like it is proved in `Edl.Proofs.SingleService`.

Main definitions:

* `Edl.LintedWorkspace`, `Edl.LintedWorkspace.step`, `Edl.LintedWorkspace.run` — the machine;
* `Edl.LintedWorkspace.Effect` — everything that a request can do to it.

Main results:

* `Edl.LintedWorkspace.step_workspace` — the workspace changes as the request says, whatever the
  scans give;
* `Edl.LintedWorkspace.effect_step` — a request does nothing else than one of the effects.
-/

import Edl.Proofs.History
import Edl.Proofs.Rescan

set_option relaxedAutoImplicit false
set_option autoImplicit false

namespace Edl

/-! ### Requests -/

/-- A workspace and the collection with the diagnostics of its documents. -/
structure LintedWorkspace where
  workspace : Workspace
  store : Collection

namespace LintedWorkspace

/-- Scans documents into the collection, under the settings of the workspace. -/
def rescan (rules : List Lint.Rule) (w : Workspace) (ds : List Document) (c : Collection) :
    Except Fault Unit × LintedWorkspace :=
  ((Collection.rescan (w.scan rules) ds c).1, ⟨w, (Collection.rescan (w.scan rules) ds c).2⟩)

/-- The result of a request, and what the workspace and the collection are after it. -/
def step (rules : List Lint.Rule) (lw : LintedWorkspace) :
    Request → Except Fault Unit × LintedWorkspace
  | .openDocument uri text language =>
      match lw.workspace.openDocument uri text language with
      | .ok (w, opened) => rescan rules w [opened] lw.store
      | .error f => (.error f, lw)
  | .changeDocument uri text =>
      match lw.workspace.changeDocument uri text with
      | .ok (w, _, changed) => rescan rules w [changed] lw.store
      | .error f => (.error f, lw)
  | .closeDocument uri =>
      match lw.workspace.closeDocument uri with
      | .ok (w, closed) => (.ok (), ⟨w, lw.store.forget closed.uri⟩)
      | .error f => (.error f, lw)
  | .setActive uri =>
      match lw.workspace.setActive uri with
      | .ok w => (.ok (), ⟨w, lw.store⟩)
      | .error f => (.error f, lw)
  | .updateConfiguration entries =>
      match lw.workspace.updateConfiguration entries with
      | .ok (w, keys) =>
          if Config.affects keys "edl" then rescan rules w w.documents.values lw.store
          else (.ok (), ⟨w, lw.store⟩)
      | .error f => (.error f, lw)
  | .execute name =>
      if name = validateCommand then
        rescan rules lw.workspace lw.workspace.activeDocument.toList lw.store
      else (.error (.commandUnknown name), lw)

/-- The workspace and the collection after requests, whether they are accepted or not. -/
def run (rules : List Lint.Rule) (lw : LintedWorkspace) (rs : List Request) : LintedWorkspace :=
  rs.foldl (fun lw r => (lw.step rules r).2) lw

theorem run_append (rules : List Lint.Rule) (lw : LintedWorkspace) (rs rs' : List Request) :
    lw.run rules (rs ++ rs') = (lw.run rules rs).run rules rs' := by
  rw [run, List.foldl_append]
  rfl

/-- The workspace changes as the request says, whatever the scans give. -/
theorem step_workspace (rules : List Lint.Rule) (lw : LintedWorkspace) (r : Request) :
    (lw.step rules r).2.workspace = lw.workspace.next r := by
  cases r with
  | openDocument uri text language =>
      simp only [step, Workspace.next, Workspace.step]
      cases lw.workspace.openDocument uri text language <;> rfl
  | changeDocument uri text =>
      simp only [step, Workspace.next, Workspace.step]
      cases lw.workspace.changeDocument uri text <;> rfl
  | closeDocument uri =>
      simp only [step, Workspace.next, Workspace.step]
      cases lw.workspace.closeDocument uri <;> rfl
  | setActive uri =>
      simp only [step, Workspace.next, Workspace.step]
      cases lw.workspace.setActive uri <;> rfl
  | updateConfiguration entries =>
      simp only [step, Workspace.next, Workspace.step]
      cases lw.workspace.updateConfiguration entries with
      | error f => rfl
      | ok result =>
          simp only [Except.map]
          split <;> rfl
  | execute name =>
      simp only [step, Workspace.next, Workspace.step]
      split <;> rfl

theorem run_workspace (rules : List Lint.Rule) (lw : LintedWorkspace) (rs : List Request) :
    (lw.run rules rs).workspace = lw.workspace.nextAll rs := by
  induction rs generalizing lw with
  | nil => rfl
  | cons r rs ih =>
      have hrest := ih (lw.step rules r).2
      rw [step_workspace] at hrest
      exact hrest

/-! ### What a request can do -/

/-- Everything that a request can do to the workspace and the collection, with its result. -/
inductive Effect (rules : List Lint.Rule) (lw : LintedWorkspace) :
    Except Fault Unit × LintedWorkspace → Prop where
  | refused (f : Fault) : Effect rules lw (.error f, lw)
  | opened {doc : Document} (active : Option String)
      (hnew : doc.uri ∉ lw.workspace.documents.keys) :
      Effect rules lw (rescan rules { lw.workspace with
        documents := lw.workspace.documents.insert doc.uri doc, active } [doc] lw.store)
  | changed {before : Document} (text : String)
      (hfind : lw.workspace.documents.find? before.uri = some before) :
      Effect rules lw (rescan rules { lw.workspace with
        documents := lw.workspace.documents.insert before.uri (before.withText text) }
        [before.withText text] lw.store)
  | closed (uri : String) (active : Option String) :
      Effect rules lw (.ok (), ⟨{ lw.workspace with
        documents := lw.workspace.documents.erase uri, active }, lw.store.forget uri⟩)
  | kept {w : Workspace} (hdocuments : w.documents = lw.workspace.documents)
      (hsettings : w.settings = lw.workspace.settings) : Effect rules lw (.ok (), ⟨w, lw.store⟩)
  | validated {doc : Document} (hmem : doc ∈ lw.workspace.documents.values) :
      Effect rules lw (rescan rules lw.workspace [doc] lw.store)
  | reconfigured {w : Workspace} (hdocuments : w.documents = lw.workspace.documents) :
      Effect rules lw (rescan rules w w.documents.values lw.store)

/-- A request does one of the effects. -/
theorem effect_step (rules : List Lint.Rule) {lw : LintedWorkspace} (hw : lw.workspace.Sound)
    (r : Request) : Effect rules lw (lw.step rules r) := by
  cases r with
  | openDocument uri text language =>
      simp only [step]
      cases hopen : lw.workspace.openDocument uri text language with
      | error f => exact .refused f
      | ok result =>
          obtain ⟨w, doc⟩ := result
          obtain ⟨hnew, rfl, rfl⟩ := Workspace.openDocument_eq_ok hopen
          have hnew' : ({ uri, text, language } : Document).uri ∉
            lw.workspace.documents.keys := hnew
          exact .opened (some uri) hnew'
  | changeDocument uri text =>
      simp only [step]
      cases hchange : lw.workspace.changeDocument uri text with
      | error f => exact .refused f
      | ok result =>
          obtain ⟨w, before, after⟩ := result
          obtain ⟨hfind, rfl, rfl⟩ := Workspace.changeDocument_eq_ok hchange
          obtain rfl := hw.keyed uri before hfind
          exact .changed text hfind
  | closeDocument uri =>
      simp only [step]
      cases hclose : lw.workspace.closeDocument uri with
      | error f => exact .refused f
      | ok result =>
          obtain ⟨w, doc⟩ := result
          obtain ⟨hfind, rfl⟩ := Workspace.closeDocument_eq_ok hclose
          obtain rfl := hw.keyed uri doc hfind
          exact .closed doc.uri _
  | setActive uri =>
      simp only [step]
      cases hactive : lw.workspace.setActive uri with
      | error f => exact .refused f
      | ok w =>
          obtain rfl := Workspace.setActive_eq_ok hactive
          exact .kept rfl rfl
  | updateConfiguration entries =>
      simp only [step]
      cases hupdate : lw.workspace.updateConfiguration entries with
      | error f => exact .refused f
      | ok result =>
          obtain ⟨w, keys⟩ := result
          have hdocuments : w.documents = lw.workspace.documents := by
            obtain ⟨rfl, -, -⟩ := Workspace.updateConfiguration_eq_ok hupdate
            rfl
          dsimp only
          split
          · exact .reconfigured hdocuments
          · next haffects =>
              -- what is not announced does not change the settings
              exact .kept hdocuments (Workspace.settings_updateConfiguration hw.flat hw.readable
                hupdate (Bool.not_eq_true _ ▸ haffects))
  | execute name =>
      simp only [step]
      split
      · cases hactive : lw.workspace.activeDocument with
        | none => exact .kept rfl rfl
        | some doc => exact .validated (Workspace.mem_values_of_activeDocument hactive)
      · exact .refused _

end LintedWorkspace

end Edl
