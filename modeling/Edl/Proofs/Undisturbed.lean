/-
Services leave the workspace alone.

Only a request changes the workspace, and it does so before anybody is told.  Whatever services,
linters and collections do then, when they are attached, told, asked and disposed, is done to their
own records, to the log and to the messages; so as long as the clients keep their hands off the
workspace as well, its effect on the workspace is all that a request has, whether or not somebody
who was told fails.

Main definitions:

* `Edl.Client.LeavesWorkspace` — clients that do nothing to the workspace;
* `Edl.Host.Still` — a host with a given workspace, as a relation that operations may respect.

Main results:

* `Edl.HostM.workspace_activate`, `Edl.HostM.workspace_deactivate` — the life of a service does not
  touch the workspace;
* `Edl.HostM.perform_of_refused`, `Edl.HostM.workspace_perform` — **a request does to the workspace
  what the workspace says**, and one that is refused does nothing at all.
-/

import Edl.Proofs.SingleService

set_option relaxedAutoImplicit false
set_option autoImplicit false

namespace Edl

/-- The clients do nothing to the workspace. -/
structure Client.LeavesWorkspace {σ : Type} (client : Client σ) : Prop where
  notify : ∀ name event h, (client.notify name event h).2.workspace = h.workspace
  invoke : ∀ number h, (client.invoke number h).2.workspace = h.workspace

/-- Both hosts are the same, and this is their workspace. -/
def Host.Still {σ : Type} (w : Workspace) (h g : Host σ) : Prop :=
  g = h ∧ h.workspace = w

namespace HostM

variable {σ α β : Type} {w : Workspace} {client : Client σ}

/-! ### Operations that leave the workspace alone -/

-- A guarded relation is of no use here: among the updates that it must be kept by are those of the
-- workspace, and it is about well-formed hosts only.

theorem respects_still_of_workspace {act : HostM σ α}
    (h : ∀ g, (act g).2.workspace = g.workspace) : Respects (Host.Still w) act := by
  rintro _ g ⟨rfl, hw⟩
  exact ⟨rfl, rfl, (h g).trans hw⟩

/-- An operation that respects every workspace leaves the workspace as it is. -/
theorem workspace_of_respects {act : HostM σ α} (h : ∀ w, Respects (Host.Still w) act)
    (g : Host σ) : (act g).2.workspace = g.workspace :=
  (h g.workspace g g ⟨rfl, rfl⟩).2.2

theorem respects_still_get {next : Host σ → HostM σ β}
    (h : ∀ g, Respects (Host.Still w) (next g)) : Respects (Host.Still w) (get >>= next) := by
  rintro _ g ⟨rfl, hw⟩
  exact RespectsAt.get_bind rfl (h g g g ⟨rfl, hw⟩)

theorem respects_still_modify {f : Host σ → Host σ} (h : ∀ g, (f g).workspace = g.workspace) :
    Respects (Host.Still w) (modify f : HostM σ Unit) :=
  respects_still_of_workspace h

theorem respects_still_ofExcept (result : Except Fault α) :
    Respects (Host.Still w) (ofExcept result : HostM σ α) :=
  fun _ _ hR => RespectsAt.ofExcept hR result

theorem respects_still_write (r : Log.Record) :
    Respects (Host.Still w) (write r : HostM σ Unit) :=
  respects_still_modify fun _ => rfl

theorem respects_still_orUndo {act : HostM σ α} {undo : HostM σ Unit}
    (hact : Respects (Host.Still w) act) (hundo : Respects (Host.Still w) undo) :
    Respects (Host.Still w) (orUndo act undo) :=
  fun h g hR => (hact h g hR).orUndo hundo

end HostM

theorem Client.LeavesWorkspace.respects {σ : Type} {client : Client σ}
    (h : client.LeavesWorkspace) (w : Workspace) : client.Respects (Host.Still w) where
  notify name event := HostM.respects_still_of_workspace (h.notify name event)
  invoke number := HostM.respects_still_of_workspace (h.invoke number)

namespace HostM

variable {σ α β : Type} {w : Workspace} {client : Client σ}

/-! ### Collections -/

section

variable (hclient : client.Respects (Host.Still w))

include hclient

theorem respects_still_publish (id : CollectionId) (uri : String) :
    Respects (Host.Still w) (publish client id uri) := by
  refine respects_still_get fun h => ?_
  cases h.collection? id with
  | none => exact Respects.pure ()
  | some c => exact Respects.forM fun name _ => hclient.notify name _

theorem respects_still_writeEntry (id : CollectionId) (uri : String) (e : Entry) :
    Respects (Host.Still w) (writeEntry client id uri e) := by
  refine respects_still_get fun h => ?_
  cases h.collection? id with
  | none => exact Respects.pure false
  | some c =>
      refine Respects.bind (respects_still_ofExcept _) fun written => ?_
      cases written with
      | none => exact Respects.pure false
      | some c' =>
          refine Respects.bind (respects_still_modify fun _ => rfl) fun _ => ?_
          exact Respects.bind (respects_still_publish hclient id uri) fun _ => Respects.pure true

theorem respects_still_deleteEntry (id : CollectionId) (uri : String) :
    Respects (Host.Still w) (deleteEntry client id uri) := by
  refine respects_still_get fun h => ?_
  cases h.collection? id with
  | none => exact Respects.pure ()
  | some c =>
      refine Respects.bind (respects_still_ofExcept _) fun deleted => ?_
      cases deleted with
      | none => exact Respects.pure ()
      | some c' =>
          refine Respects.bind (respects_still_modify fun _ => rfl) fun _ => ?_
          exact respects_still_publish hclient id uri

theorem respects_still_clearEntries (id : CollectionId) :
    Respects (Host.Still w) (clearEntries client id) := by
  refine respects_still_get fun h => ?_
  cases h.collection? id with
  | none => exact Respects.pure ()
  | some c =>
      refine Respects.bind (respects_still_modify fun _ => rfl) fun _ => ?_
      exact Respects.forM fun uri _ => respects_still_publish hclient id uri

theorem respects_still_disposeCollection (id : CollectionId) :
    Respects (Host.Still w) (disposeCollection client id) := by
  refine respects_still_get fun h => ?_
  cases h.collection? id with
  | none => exact Respects.pure ()
  | some c =>
      dsimp only
      split
      · exact Respects.pure ()
      · exact Respects.bind (respects_still_clearEntries hclient id) fun _ =>
          respects_still_modify fun _ => rfl

/-! ### Linters -/

theorem respects_still_validate (l : LinterId) (d : Document) :
    Respects (Host.Still w) (validate client l d) := by
  refine respects_still_get fun h => ?_
  cases h.linters.get? l.number with
  | none => exact Respects.pure []
  | some linter =>
      refine respects_still_get fun h => ?_
      refine Respects.bind (respects_still_ofExcept _) fun settings => ?_
      refine Respects.bind (respects_still_ofExcept _) fun ⟨found, record⟩ => ?_
      refine Respects.bind (respects_still_write record) fun _ => ?_
      refine Respects.bind (respects_still_writeEntry hclient _ _ _) fun _ => ?_
      refine respects_still_get fun h => ?_
      cases h.collection? linter.collection with
      | none => exact Respects.pure []
      | some c => exact Respects.pure (c.get d.uri)

theorem respects_still_scanOne (l : LinterId) (d : Document) :
    Respects (Host.Still w)
      (do if d.isEdl then let _ ← validate client l d : HostM σ Unit) := by
  split
  · exact Respects.bind (respects_still_validate hclient l d) fun _ => Respects.pure ()
  · exact Respects.pure ()

theorem respects_still_revalidate (l : LinterId) :
    Respects (Host.Still w) (revalidate client l) :=
  respects_still_get fun _ => Respects.forM fun d _ => respects_still_scanOne hclient l d

theorem respects_still_linterNotified (l : LinterId) (event : Event) :
    Respects (Host.Still w) (linterNotified client l event) := by
  cases event with
  | opened d => exact respects_still_scanOne hclient l d
  | changed d before =>
      simp only [linterNotified]
      split
      · refine Respects.bind (respects_still_write _) fun _ => ?_
        exact Respects.bind (respects_still_validate hclient l d) fun _ => Respects.pure ()
      · exact Respects.pure ()
  | closed d =>
      refine respects_still_get fun h => ?_
      cases h.linters.get? l.number with
      | none => exact Respects.pure ()
      | some linter => exact respects_still_deleteEntry hclient _ _
  | configured keys => exact Respects.pure ()
  | diagnostics uri => exact Respects.pure ()

omit hclient in
theorem respects_still_popLinter (l : LinterId) :
    Respects (Host.Still w) (popLinter l : HostM σ (Option Linter.Holding)) := by
  refine respects_still_get fun h => ?_
  rcases h.linters.get? l.number with _ | ⟨rules, collection, _ | ⟨thing, rest⟩⟩
  · exact Respects.pure none
  · exact Respects.pure none
  · exact Respects.bind (respects_still_modify fun _ => rfl) fun _ => Respects.pure (some thing)

theorem respects_still_releaseLinter (l : LinterId) (thing : Linter.Holding) :
    Respects (Host.Still w) (releaseLinter client l thing) := by
  cases thing with
  | channel c => exact respects_still_modify fun _ => rfl
  | collection =>
      refine respects_still_get fun h => ?_
      cases h.linters.get? l.number with
      | none => exact Respects.pure ()
      | some linter => exact respects_still_disposeCollection hclient _

theorem respects_still_disposeLinter (l : LinterId) :
    Respects (Host.Still w) (disposeLinter client l) := by
  refine respects_still_get fun h => ?_
  cases h.linters.get? l.number with
  | none => exact Respects.pure ()
  | some linter =>
      refine Respects.bind (Respects.drain (respects_still_popLinter l) ?_ _ _) fun fault =>
        Respects.throwIfSome fault
      intro thing _ _ h' g' _ _ hR
      exact respects_still_releaseLinter hclient l thing h' g' hR

theorem respects_still_attachLinter (rules : List Lint.Rule) :
    Respects (Host.Still w) (attachLinter client rules) := by
  refine Respects.bind (respects_still_ofExcept _) fun _ => ?_
  refine Respects.bind (respects_still_of_workspace fun _ => rfl) fun c => ?_
  refine respects_still_get fun h => ?_
  refine Respects.bind (respects_still_modify fun _ => rfl) fun _ => ?_
  refine Respects.bind (respects_still_of_workspace fun _ => rfl) fun _ => ?_
  refine Respects.bind (respects_still_of_workspace fun _ => rfl) fun _ => ?_
  refine Respects.bind (respects_still_of_workspace fun _ => rfl) fun _ => ?_
  refine Respects.bind (respects_still_orUndo (respects_still_revalidate hclient _)
    (respects_still_disposeLinter hclient _)) fun _ => ?_
  exact Respects.pure _

/-! ### Services -/

theorem respects_still_validateActive (s : ServiceId) :
    Respects (Host.Still w) (validateActive client s) := by
  have hwarn : Respects (Host.Still w) (do
      showWarning noEdlDocument
      return none : HostM σ (Option (List Diagnostic))) :=
    respects_still_of_workspace fun _ => rfl
  refine respects_still_get fun h => ?_
  cases h.services.get? s.number with
  | none => exact Respects.pure none
  | some service =>
      refine respects_still_get fun h => ?_
      cases h.workspace.activeDocument with
      | none => exact hwarn
      | some d =>
          dsimp only
          split
          · refine Respects.bind (respects_still_validate hclient _ d) fun found => ?_
            exact respects_still_of_workspace fun _ => rfl
          · exact hwarn

theorem respects_still_serviceNotified (s : ServiceId) (event : Event) :
    Respects (Host.Still w) (serviceNotified client s event) := by
  cases event with
  | configured keys =>
      refine respects_still_get fun h => ?_
      cases h.services.get? s.number with
      | none => exact Respects.pure ()
      | some service =>
          dsimp only
          split
          · exact respects_still_revalidate hclient _
          · exact Respects.pure ()
  | opened d => exact Respects.pure ()
  | changed d before => exact Respects.pure ()
  | closed d => exact Respects.pure ()
  | diagnostics uri => exact Respects.pure ()

omit hclient in
theorem respects_still_popService (s : ServiceId) :
    Respects (Host.Still w) (popService s : HostM σ (Option Service.Holding)) := by
  refine respects_still_get fun h => ?_
  rcases h.services.get? s.number with _ | ⟨linter, _ | ⟨thing, rest⟩⟩
  · exact Respects.pure none
  · exact Respects.pure none
  · exact Respects.bind (respects_still_modify fun _ => rfl) fun _ => Respects.pure (some thing)

theorem respects_still_releaseService (s : ServiceId) (thing : Service.Holding) :
    Respects (Host.Still w) (releaseService client s thing) := by
  cases thing with
  | configuration => exact respects_still_modify fun _ => rfl
  | command => exact respects_still_modify fun _ => rfl
  | linter =>
      refine respects_still_get fun h => ?_
      cases h.services.get? s.number with
      | none => exact Respects.pure ()
      | some service => exact respects_still_disposeLinter hclient _

theorem respects_still_releaseAll (s : ServiceId) :
    Respects (Host.Still w) (releaseAll client s) := by
  refine respects_still_get fun h => ?_
  cases h.services.get? s.number with
  | none => exact Respects.pure ()
  | some service =>
      refine Respects.bind (Respects.drain (respects_still_popService s) ?_ _ _) fun fault =>
        Respects.throwIfSome fault
      intro thing _ _ h' g' _ _ hR
      exact respects_still_releaseService hclient s thing h' g' hR

theorem respects_still_activate (rules : List Lint.Rule) :
    Respects (Host.Still w) (activate client rules) := by
  refine Respects.bind (respects_still_attachLinter hclient rules) fun l => ?_
  refine respects_still_get fun h => ?_
  refine Respects.bind (respects_still_modify fun _ => rfl) fun _ => ?_
  refine Respects.bind (respects_still_orUndo ?_ (respects_still_releaseAll hclient _)) fun _ => ?_
  · -- what a service acquires besides its linter
    have hregister : Respects (Host.Still w)
        (registerCommand validateCommand (.validateActive ⟨h.services.next⟩) :
          HostM σ (Subscription Registration)) := by
      refine respects_still_get fun h => ?_
      split
      · exact Respects.bind (Respects.throw _) fun _ => respects_still_of_workspace fun _ => rfl
      · exact respects_still_of_workspace fun _ => rfl
    refine Respects.bind hregister fun _ => ?_
    exact respects_still_of_workspace fun _ => rfl
  · exact respects_still_of_workspace fun _ => rfl

/-! ### Telling and asking -/

theorem respects_still_fire (channel : Channel) (event : Event) :
    Respects (Host.Still w) (fire client channel event) := by
  refine respects_still_get fun h => Respects.forM fun x _ => ?_
  cases x with
  | linter l => exact respects_still_linterNotified hclient l event
  | service s => exact respects_still_serviceNotified hclient s event
  | client name => exact hclient.notify name event

theorem respects_still_execute (name : String) :
    Respects (Host.Still w) (execute client name) := by
  refine respects_still_get fun h => ?_
  rcases h.commands.find? name with _ | ⟨s⟩ | ⟨number⟩
  · exact Respects.throw _
  · refine Respects.bind (respects_still_validateActive hclient s) fun found => ?_
    cases found with
    | none => exact Respects.pure _
    | some found => exact Respects.pure _
  · exact Respects.bind (hclient.invoke number) fun v => Respects.pure _

end

/-! ### Requests -/

section

variable (hclient : client.LeavesWorkspace)

include hclient

theorem workspace_fire (channel : Channel) (event : Event) (h : Host σ) :
    (fire client channel event h).2.workspace = h.workspace :=
  workspace_of_respects (fun w => respects_still_fire (hclient.respects w) channel event) h

theorem workspace_execute (name : String) (h : Host σ) :
    (execute client name h).2.workspace = h.workspace :=
  workspace_of_respects (fun w => respects_still_execute (hclient.respects w) name) h

/-- Activating a service does not touch the workspace, whether or not it succeeds. -/
theorem workspace_activate (rules : List Lint.Rule) (h : Host σ) :
    (activate client rules h).2.workspace = h.workspace :=
  workspace_of_respects (fun w => respects_still_activate (hclient.respects w) rules) h

theorem workspace_deactivate (s : ServiceId) (h : Host σ) :
    (deactivate client s h).2.workspace = h.workspace :=
  workspace_of_respects (fun w => Respects.bind
    (respects_still_releaseAll (hclient.respects w) s) fun _ => respects_still_write _) h

/-- What follows the telling is not about the workspace. -/
theorem workspace_fire_bind {α : Type} (channel : Channel) (event : Event) (a : α) (h : Host σ) :
    ((fire client channel event >>= fun _ => pure a) h).2.workspace = h.workspace := by
  have hfire := workspace_fire hclient channel event h
  rw [bind_apply]
  rcases hrun : fire client channel event h with ⟨_ | _, h'⟩ <;> rw [hrun] at hfire <;> exact hfire

end

theorem error_of_map_eq_error {α β : Type} {result : Except Fault α} {f : α → β} {fault : Fault}
    (h : result.map f = .error fault) : result = .error fault := by
  cases result with
  | error g => exact congrArg Except.error (Except.error.inj h)
  | ok a => cases h

/-- A request that the workspace refuses does nothing at all. -/
theorem perform_of_refused (client : Client σ) {h : Host σ} {r : Request} {f : Fault}
    (hstep : h.workspace.step r = .error f) : perform client r h = (.error f, h) := by
  cases r with
  | openDocument uri text language =>
      have hopen := error_of_map_eq_error hstep
      simp only [perform]
      unfold openDocument
      rw [discard_apply, get_bind, hopen, settle_bind_error]
      rfl
  | changeDocument uri text =>
      have hchange := error_of_map_eq_error hstep
      simp only [perform]
      unfold changeDocument
      rw [discard_apply, get_bind, hchange, settle_bind_error]
      rfl
  | closeDocument uri =>
      have hclose := error_of_map_eq_error hstep
      simp only [perform]
      unfold closeDocument
      rw [get_bind, hclose, settle_bind_error]
  | setActive uri =>
      have hactive : h.workspace.setActive uri = .error f := hstep
      simp only [perform]
      unfold setActive
      rw [get_bind, hactive]
      rfl
  | updateConfiguration entries =>
      have hupdate := error_of_map_eq_error hstep
      simp only [perform]
      unfold updateConfiguration
      rw [get_bind, hupdate, settle_bind_error]
  | execute name => cases hstep

/-- A request that the workspace accepts has its effect on it, whatever those who are told do. -/
theorem workspace_perform_of_accepted (hclient : client.LeavesWorkspace) {h : Host σ} {r : Request}
    {w : Workspace} (hstep : h.workspace.step r = .ok w) :
    (perform client r h).2.workspace = w := by
  cases r with
  | openDocument uri text language =>
      obtain ⟨⟨_, d⟩, hopen, rfl⟩ := Workspace.exists_of_map_eq_ok hstep
      simp only [perform]
      unfold openDocument
      rw [discard_apply, get_bind, hopen, settle_bind_ok]
      exact workspace_fire_bind hclient _ _ _ _
  | changeDocument uri text =>
      obtain ⟨⟨_, before, after⟩, hchange, rfl⟩ := Workspace.exists_of_map_eq_ok hstep
      simp only [perform]
      unfold changeDocument
      rw [discard_apply, get_bind, hchange, settle_bind_ok]
      exact workspace_fire_bind hclient _ _ _ _
  | closeDocument uri =>
      obtain ⟨⟨_, d⟩, hclose, rfl⟩ := Workspace.exists_of_map_eq_ok hstep
      simp only [perform]
      unfold closeDocument
      rw [get_bind, hclose, settle_bind_ok]
      exact workspace_fire hclient _ _ _
  | setActive uri =>
      have hactive : h.workspace.setActive uri = .ok w := hstep
      simp only [perform]
      unfold setActive
      rw [get_bind, hactive]
      rfl
  | updateConfiguration entries =>
      obtain ⟨⟨_, keys⟩, hupdate, rfl⟩ := Workspace.exists_of_map_eq_ok hstep
      simp only [perform]
      unfold updateConfiguration
      rw [get_bind, hupdate, settle_bind_ok]
      split
      · rfl
      · exact workspace_fire hclient _ _ _
  | execute name =>
      obtain rfl := Except.ok.inj hstep
      simp only [perform]
      rw [discard_apply]
      exact workspace_execute hclient name h

/-- A request does to the workspace what the workspace says. -/
theorem workspace_perform (hclient : client.LeavesWorkspace) (r : Request) (h : Host σ) :
    (perform client r h).2.workspace = h.workspace.next r := by
  cases hstep : h.workspace.step r with
  | error f => rw [perform_of_refused client hstep, Workspace.next, hstep]
  | ok w => rw [workspace_perform_of_accepted hclient hstep, Workspace.next, hstep]

end HostM

end Edl
