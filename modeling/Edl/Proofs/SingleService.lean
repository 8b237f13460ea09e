/-
A host with one service and nobody else.

When a service is the only listener, its collection has no observers and its command is the only
one, no request reaches a client.  The host then behaves as the linted workspace made of its
workspace and that collection, and what is proved about linted workspaces holds of it.  Such hosts
arise from activating a service on a host to which nothing is attached.

Main definitions:

* `Edl.Host.Bare` — a host without listeners and commands;
* `Edl.Host.SingleService` — a host with one service and nobody else;
* `Edl.Host.EndsAs` — an operation on such a host ends as on the linted workspace.

Main results:

* `Edl.HostM.perform_of_bare`, `Edl.HostM.after_of_bare` — on a bare host a request only
  changes the workspace;
* `Edl.HostM.singleService_of_activate` — a service that was activated on a bare host is alone
  there;
* `Edl.HostM.perform_of_singleService`, `Edl.HostM.after_of_singleService` — **a host with one
  service and nobody else behaves as its linted workspace**.
-/

import Edl.Proofs.Activation
import Edl.Proofs.LintedWorkspace

set_option relaxedAutoImplicit false
set_option autoImplicit false

namespace Edl

/-! ### Hosts with one service, and with none -/

namespace Host

variable {σ : Type}

/-- Nobody listens, and there are no commands. -/
structure Bare (h : Host σ) : Prop where
  listeners : ∀ channel, (h.channels.get channel).listeners = []
  commands : ∀ name, h.commands.find? name = none

/-- One service listens, its command is the only one, and nobody observes its collection. -/
structure SingleService (h : Host σ) (s : ServiceId) (l : LinterId) (linter : Linter)
    (c : Collection) : Prop where
  listeners : ∀ channel, (h.channels.get channel).listeners = [s.listener l channel]
  commands : ∀ name, h.commands.find? name =
    if name = validateCommand then some (.validateActive s) else none
  service : ∃ held, h.services.get? s.number = some ⟨l, held⟩
  feeds : h.Feeds l linter c

variable {h : Host σ} {s : ServiceId} {l : LinterId} {linter : Linter} {c c' : Collection}

theorem Bare.frame (hb : h.Bare) (workspace : Workspace) : Bare { h with workspace } :=
  ⟨hb.listeners, hb.commands⟩

/-- The wiring does not depend on the workspace, the messages and the log. -/
theorem SingleService.frame (hs : h.SingleService s l linter c) (workspace : Workspace)
    (messages : List Message) (log : List Log.Record) :
    SingleService { h with workspace, messages, log } s l linter c :=
  ⟨hs.listeners, hs.commands, hs.service,
    hs.feeds.linter_eq, hs.feeds.collection_eq, hs.feeds.alive, hs.feeds.unobserved⟩

theorem SingleService.withStore (hs : h.SingleService s l linter c) (halive : c'.disposed = false)
    (hunobserved : c'.emitter.listeners = []) (records : List Log.Record) :
    (h.withStore linter.collection c' records).SingleService s l linter c' :=
  ⟨hs.listeners, hs.commands, hs.service,
    hs.feeds.withStore halive hunobserved records⟩

/-- The collection after a scan is as good for the service as the one before. -/
theorem SingleService.rescan (hs : h.SingleService s l linter c)
    (scan : Document → Except Fault Lint.Outcome) (ds : List Document)
    (records : List Log.Record) :
    (h.withStore linter.collection (Collection.rescan scan ds c).2 records).SingleService s l linter
      (Collection.rescan scan ds c).2 := by
  have hframe := @Collection.rescan_frame scan ds c
  refine hs.withStore ?_ ?_ records
  · rw [hframe.2.2, hs.feeds.alive]
  · rw [hframe.2.1, hs.feeds.unobserved]

/-- Activating a service on a bare host leaves it alone there. -/
theorem singleService_activated (hb : h.Bare) (rules : List Lint.Rule) (records : List Log.Record)
    (halive : c.disposed = false) (hunobserved : c.emitter.listeners = []) :
    (h.activated rules c records).SingleService ⟨h.services.next⟩ ⟨h.linters.next⟩
      ⟨rules, ⟨h.collections.next⟩, Linter.acquired⟩ c where
  listeners := by
    intro channel
    have hnone := hb.listeners channel
    cases channel <;>
      simpa [activated, Channels.withLinter, Channels.modify, Channels.get, ServiceId.listener]
        using hnone
  commands := by
    intro name
    change (h.commands.insert validateCommand _).find? name = _
    rw [Table.find?_insert, hb.commands]
  service := ⟨Service.acquired, Registry.get?_add_next ..⟩
  feeds := ⟨Registry.get?_add_next .., Registry.get?_add_next .., halive, hunobserved⟩

theorem SingleService.storeOf?_eq (hs : h.SingleService s l linter c) : h.storeOf? s = some c := by
  obtain ⟨held, hservice⟩ := hs.service
  simp [storeOf?, hservice, hs.feeds.linter_eq, hs.feeds.collection_eq]

/-- An operation on the host ends as the linted workspace does. -/
def EndsAs (s : ServiceId) (l : LinterId) (linter : Linter)
    (outcome : Except Fault Unit × Host σ) (linted : Except Fault Unit × LintedWorkspace) : Prop :=
  outcome.1 = linted.1 ∧ outcome.2.workspace = linted.2.workspace ∧
    outcome.2.SingleService s l linter linted.2.store

end Host

namespace HostM

variable {σ : Type} {h : Host σ} {s : ServiceId} {l : LinterId} {linter : Linter} {c : Collection}

/-- With one listener on a channel, telling the channel is telling the listener. -/
theorem fire_of_singleton (client : Client σ) {channel : Channel} {listener : Listener}
    (hone : (h.channels.get channel).listeners = [listener]) (event : Event) :
    fire client channel event h = notify client event listener h := by
  unfold fire
  rw [get_bind, hone]
  change (notify client event listener >>= fun _ => pure ()) h = _
  rw [bind_apply]
  rcases notify client event listener h with ⟨_ | _, _⟩ <;> rfl

/-- Scanning one document, if it is of the language. -/
theorem scanOne_of_singleService (client : Client σ) (hs : h.SingleService s l linter c)
    (d : Document) :
    Host.EndsAs s l linter
      ((do if d.isEdl then let _ ← validate client l d : HostM σ Unit) h)
      (LintedWorkspace.rescan linter.rules h.workspace [d] c) := by
  obtain ⟨records, hscan⟩ := forM_validate_of_feeds client hs.feeds [d]
  have hone : ([d].forM fun d => do if d.isEdl then let _ ← validate client l d : HostM σ Unit) h =
      (do if d.isEdl then let _ ← validate client l d : HostM σ Unit) h := by
    change ((do if d.isEdl then let _ ← validate client l d : HostM σ Unit) >>=
      fun _ => pure ()) h = _
    rw [bind_apply]
    rcases (do if d.isEdl then let _ ← validate client l d : HostM σ Unit) h with ⟨_ | _, _⟩ <;> rfl
  rw [← hone, hscan]
  exact ⟨rfl, rfl, hs.rescan _ [d] records⟩

/-- Scanning all open documents. -/
theorem revalidate_of_singleService (client : Client σ) (hs : h.SingleService s l linter c) :
    Host.EndsAs s l linter (revalidate client l h)
      (LintedWorkspace.rescan linter.rules h.workspace h.workspace.documents.values c) := by
  obtain ⟨records, hscan⟩ := revalidate_of_feeds client hs.feeds
  rw [hscan]
  exact ⟨rfl, rfl, hs.rescan _ _ records⟩

/-- What an operation answers is dropped. -/
theorem discard_bind_pure {α : Type} (act : HostM σ Unit) (a : α) (h : Host σ) :
    (discard (act >>= fun _ => pure a) : HostM σ PUnit) h = act h := by
  rw [discard_apply, bind_apply]
  rcases act h with ⟨_ | _, _⟩ <;> rfl

theorem settle_bind_ok {α β : Type} (w : Workspace) (a : α) (next : α → HostM σ β) (h : Host σ) :
    (settle (.ok (w, a)) >>= next) h = next a { h with workspace := w } := rfl

theorem settle_bind_error {α β : Type} (f : Fault) (next : α → HostM σ β) (h : Host σ) :
    (settle (.error f) >>= next) h = (.error f, h) := rfl

/-! ### Requests to a bare host -/

theorem fire_of_bare (client : Client σ) (hb : h.Bare) (channel : Channel) (event : Event) :
    fire client channel event h = (.ok (), h) := by
  unfold fire
  rw [get_bind, hb.listeners channel]
  rfl

/-- A change of the workspace is settled or refused, and nothing more happens if what follows does
nothing. -/
theorem settle_bind_snd {α β : Type} (result : Except Fault (Workspace × α)) {next : α → HostM σ β}
    (hnext : ∀ w a, (next a { h with workspace := w }).2 = { h with workspace := w }) :
    ((settle result >>= next) h).2 =
      { h with
        workspace := match result.map Prod.fst with
          | .ok w => w
          | .error _ => h.workspace } := by
  cases result with
  | error f => rfl
  | ok settled =>
      obtain ⟨w, a⟩ := settled
      rw [settle_bind_ok]
      exact hnext w a

/-- On a bare host a request only changes the workspace. -/
theorem perform_of_bare (client : Client σ) (hb : h.Bare) (r : Request) :
    (perform client r h).2 = { h with workspace := h.workspace.next r } := by
  cases r with
  | openDocument uri text language =>
      simp only [perform, discard_apply, openDocument, get_bind]
      refine settle_bind_snd _ fun w d => ?_
      rw [bind_of_ok (fire_of_bare client (hb.frame w) _ _)]
      rfl
  | changeDocument uri text =>
      simp only [perform, discard_apply, changeDocument, get_bind]
      refine settle_bind_snd _ fun w (before, after) => ?_
      rw [bind_of_ok (fire_of_bare client (hb.frame w) _ _)]
      rfl
  | closeDocument uri =>
      simp only [perform, closeDocument, get_bind]
      refine settle_bind_snd _ fun w d => ?_
      rw [fire_of_bare client (hb.frame w)]
  | setActive uri =>
      simp only [perform, setActive, get_bind, Workspace.next, Workspace.step]
      cases h.workspace.setActive uri <;> rfl
  | updateConfiguration entries =>
      simp only [perform, updateConfiguration, get_bind]
      refine settle_bind_snd _ fun w keys => ?_
      split
      · rfl
      · rw [fire_of_bare client (hb.frame w)]
  | execute name =>
      simp only [perform, discard_apply, execute, get_bind, hb.commands]
      rfl

/-- The host to which nothing is attached. -/
theorem bare_mk (workspace : Workspace) (state : σ) :
    Host.Bare { workspace, client := state } :=
  ⟨fun channel => by cases channel <;> rfl, fun _ => rfl⟩

theorem after_of_bare (client : Client σ) (hb : h.Bare) (rs : List Request) :
    h.after client rs = { h with workspace := h.workspace.nextAll rs } := by
  induction rs generalizing h with
  | nil => rfl
  | cons r rs ih =>
      rw [Host.after_cons, perform_of_bare client hb r, ih (hb.frame _)]
      rfl

/-- A service that was activated on a bare host is alone there, and has scanned all documents. -/
theorem singleService_of_activate (client : Client σ) (hb : h.Bare) {rules : List Lint.Rule}
    {h₁ : Host σ} (hactivate : activate client rules h = (.ok s, h₁)) :
    (h.firstScan rules).1 = .ok () ∧ h₁.workspace = h.workspace ∧
      ∃ l linter, linter.rules = rules ∧ h₁.SingleService s l linter (h.firstScan rules).2 := by
  obtain ⟨hadmitted, rfl, records, rfl⟩ := activated_of_activate hactivate
  obtain ⟨-, hscan, -⟩ := admission_eq_ok_iff.1 hadmitted
  obtain ⟨halive, hunobserved⟩ := h.firstScan_frame rules
  exact ⟨hscan, rfl, _, _, rfl, Host.singleService_activated hb rules records halive hunobserved⟩

/-! ### Requests to a host with one service -/

theorem open_of_singleService (client : Client σ) (hs : h.SingleService s l linter c)
    (uri text language : String) :
    Host.EndsAs s l linter (perform client (.openDocument uri text language) h)
      (LintedWorkspace.step linter.rules ⟨h.workspace, c⟩ (.openDocument uri text language)) := by
  simp only [perform, LintedWorkspace.step]
  unfold openDocument
  cases hopen : h.workspace.openDocument uri text language with
  | error f =>
      rw [discard_apply, get_bind, hopen, settle_bind_error]
      exact ⟨rfl, rfl, hs⟩
  | ok result =>
      obtain ⟨w, d⟩ := result
      have hs' := hs.frame w h.messages h.log
      have hrun : (discard (do
          let d ← settle ((← get).workspace.openDocument uri text language)
          fire client .opened (.opened d)
          return d) : HostM σ PUnit) h =
            fire client .opened (.opened d) { h with workspace := w } := by
        rw [discard_apply, get_bind, hopen, settle_bind_ok, ← discard_apply, discard_bind_pure]
      rw [hrun, fire_of_singleton client (hs'.listeners .opened)]
      exact scanOne_of_singleService client hs' d

theorem change_of_singleService (client : Client σ) (hs : h.SingleService s l linter c)
    (uri text : String) :
    Host.EndsAs s l linter (perform client (.changeDocument uri text) h)
      (LintedWorkspace.step linter.rules ⟨h.workspace, c⟩ (.changeDocument uri text)) := by
  simp only [perform, LintedWorkspace.step]
  cases hchange : h.workspace.changeDocument uri text with
  | error f =>
      unfold changeDocument
      rw [discard_apply, get_bind, hchange, settle_bind_error]
      exact ⟨rfl, rfl, hs⟩
  | ok result =>
      obtain ⟨w, before, after⟩ := result
      have hs' := hs.frame w h.messages h.log
      have hrun : (discard (changeDocument client uri text) : HostM σ PUnit) h =
          fire client .changed (.changed after before.version) { h with workspace := w } := by
        unfold changeDocument
        rw [discard_apply, get_bind, hchange, settle_bind_ok, ← discard_apply, discard_bind_pure]
      rw [hrun, fire_of_singleton client (hs'.listeners .changed), ServiceId.listener, notify,
        linterNotified]
      by_cases hedl : after.isEdl = true
      · -- the change is logged before the document is scanned
        have hscan := scanOne_of_singleService client (hs.frame w h.messages
          (h.log ++ [.documentChanged after.uri before.version after.version])) after
        rw [if_pos hedl] at hscan
        rw [if_pos hedl, bind_of_ok (write_apply _ _)]
        exact hscan
      · have hscan := scanOne_of_singleService client hs' after
        rw [if_neg hedl] at hscan
        rw [if_neg hedl]
        exact hscan

theorem close_of_singleService (client : Client σ) (hs : h.SingleService s l linter c)
    (uri : String) :
    Host.EndsAs s l linter (perform client (.closeDocument uri) h)
      (LintedWorkspace.step linter.rules ⟨h.workspace, c⟩ (.closeDocument uri)) := by
  simp only [perform, LintedWorkspace.step]
  unfold closeDocument
  cases hclose : h.workspace.closeDocument uri with
  | error f =>
      rw [get_bind, hclose, settle_bind_error]
      exact ⟨rfl, rfl, hs⟩
  | ok result =>
      obtain ⟨w, d⟩ := result
      have hs' := hs.frame w h.messages h.log
      rw [get_bind, hclose, settle_bind_ok, fire_of_singleton client (hs'.listeners .closed),
        ServiceId.listener, notify, linterNotified, get_bind, hs'.feeds.linter_eq]
      have hdelete := deleteEntry_of_unobserved client hs'.feeds.collection_eq hs'.feeds.alive
        hs'.feeds.unobserved d.uri
      dsimp only
      rw [hdelete]
      have halive : (c.forget d.uri).disposed = false := hs.feeds.alive
      have hunobserved : (c.forget d.uri).emitter.listeners = [] := hs.feeds.unobserved
      exact ⟨rfl, rfl, hs'.withStore halive hunobserved []⟩

theorem setActive_of_singleService (client : Client σ) (hs : h.SingleService s l linter c)
    (uri : Option String) :
    Host.EndsAs s l linter (perform client (.setActive uri) h)
      (LintedWorkspace.step linter.rules ⟨h.workspace, c⟩ (.setActive uri)) := by
  simp only [perform, LintedWorkspace.step]
  unfold setActive
  rw [get_bind]
  cases h.workspace.setActive uri with
  | error f => exact ⟨rfl, rfl, hs⟩
  | ok w => exact ⟨rfl, rfl, hs.frame w h.messages h.log⟩

theorem update_of_singleService (client : Client σ) (hs : h.SingleService s l linter c)
    (entries : List (String × Config.Value)) :
    Host.EndsAs s l linter (perform client (.updateConfiguration entries) h)
      (LintedWorkspace.step linter.rules ⟨h.workspace, c⟩ (.updateConfiguration entries)) := by
  simp only [perform, LintedWorkspace.step]
  unfold updateConfiguration
  cases hupdate : h.workspace.updateConfiguration entries with
  | error f =>
      rw [get_bind, hupdate, settle_bind_error]
      exact ⟨rfl, rfl, hs⟩
  | ok result =>
      obtain ⟨w, keys⟩ := result
      have hs' := hs.frame w h.messages h.log
      rw [get_bind, hupdate, settle_bind_ok]
      by_cases hempty : keys.isEmpty = true
      · -- nothing changed, so nobody is told
        have haffects : Config.affects keys "edl" = false := by
          rw [List.isEmpty_iff.1 hempty]
          rfl
        rw [if_pos hempty]
        simp only [haffects, Bool.false_eq_true, if_false]
        exact ⟨rfl, rfl, hs'⟩
      · obtain ⟨held, hservice⟩ := hs'.service
        rw [if_neg hempty, fire_of_singleton client (hs'.listeners .configured),
          ServiceId.listener, notify, serviceNotified, get_bind, hservice]
        dsimp only
        by_cases haffects : Config.affects keys "edl" = true
        · rw [if_pos haffects, if_pos haffects]
          exact revalidate_of_singleService client hs'
        · rw [if_neg haffects, if_neg haffects]
          exact ⟨rfl, rfl, hs'⟩

/-- With an active document of the language the command scans it and tells the user. -/
theorem validateActive_of_active (client : Client σ) (hs : h.SingleService s l linter c)
    {d : Document} (hactive : h.workspace.activeDocument = some d) (hedl : d.isEdl = true) :
    validateActive client s h =
      (do
        let found ← validate client l d
        showInformation validationCompleted
        return some found : HostM σ (Option (List Diagnostic))) h := by
  obtain ⟨held, hservice⟩ := hs.service
  unfold validateActive
  rw [get_bind, hservice]
  dsimp only
  rw [get_bind, hactive]
  dsimp only
  rw [if_pos hedl]

/-- The command of the service scans the active document and answers what is then stored for it. -/
theorem validateActive_of_scan_ok (client : Client σ) (hs : h.SingleService s l linter c)
    {d : Document} {o : Lint.Outcome} (hactive : h.workspace.activeDocument = some d)
    (hedl : d.isEdl = true) (hscan : h.workspace.scan linter.rules d = .ok o) :
    ∃ h', validateActive client s h =
        (.ok (some ((c.accept d.uri (d.entry o)).get d.uri)), h') ∧
      h'.workspace = h.workspace ∧ h'.SingleService s l linter (c.accept d.uri (d.entry o)) := by
  have hs' := hs.rescan (h.workspace.scan linter.rules) [d] [o.record d.uri]
  rw [Collection.rescan_singleton_of_ok hedl hscan] at hs'
  rw [validateActive_of_active client hs hactive hedl,
    bind_of_ok (validate_of_scan_ok client hs.feeds hscan)]
  exact ⟨_, rfl, rfl, hs'.frame h.workspace _ _⟩

/-- A scan that fails makes the command fail, and changes nothing. -/
theorem validateActive_of_scan_error (client : Client σ) (hs : h.SingleService s l linter c)
    {d : Document} {f : Fault} (hactive : h.workspace.activeDocument = some d)
    (hedl : d.isEdl = true) (hscan : h.workspace.scan linter.rules d = .error f) :
    validateActive client s h = (.error f, h) := by
  rw [validateActive_of_active client hs hactive hedl,
    bind_of_error (validate_of_scan_error client hs.feeds hscan)]

/-- Without an active document of the language the command only tells the user. -/
theorem validateActive_of_no_document (client : Client σ) (hs : h.SingleService s l linter c)
    (hnone : ∀ d, h.workspace.activeDocument = some d → ¬d.isEdl = true) :
    ∃ h', validateActive client s h = (.ok none, h') ∧ h'.workspace = h.workspace ∧
      h'.SingleService s l linter c := by
  obtain ⟨held, hservice⟩ := hs.service
  unfold validateActive
  rw [get_bind, hservice]
  dsimp only
  rw [get_bind]
  cases hactive : h.workspace.activeDocument with
  | none => exact ⟨_, rfl, rfl, hs.frame h.workspace _ _⟩
  | some d =>
      dsimp only
      rw [if_neg (hnone d hactive)]
      exact ⟨_, rfl, rfl, hs.frame h.workspace _ _⟩

/-- The command under its name is that of the service. -/
theorem execute_of_singleService (client : Client σ) (hs : h.SingleService s l linter c) :
    execute client validateCommand h = Handler.run client (.validateActive s) h := by
  refine execute_of_find? client ?_
  rw [hs.commands, if_pos rfl]

theorem command_of_singleService (client : Client σ) (hs : h.SingleService s l linter c)
    (name : String) :
    Host.EndsAs s l linter (perform client (.execute name) h)
      (LintedWorkspace.step linter.rules ⟨h.workspace, c⟩ (.execute name)) := by
  simp only [perform, LintedWorkspace.step]
  rw [discard_apply]
  by_cases hname : name = validateCommand
  · subst hname
    rw [if_pos rfl, execute_of_singleService client hs, Handler.run]
    simp only [LintedWorkspace.rescan]
    cases hactive : h.workspace.activeDocument with
    | none =>
        obtain ⟨h', hrun, hw, hs'⟩ := validateActive_of_no_document client hs (by simp [hactive])
        rw [bind_of_ok hrun]
        exact ⟨rfl, hw, hs'⟩
    | some d =>
        rw [Option.toList_some]
        by_cases hedl : d.isEdl = true
        · cases hscan : h.workspace.scan linter.rules d with
          | error f =>
              rw [Collection.rescan_singleton_of_error hedl hscan,
                bind_of_error (validateActive_of_scan_error client hs hactive hedl hscan)]
              exact ⟨rfl, rfl, hs⟩
          | ok o =>
              obtain ⟨h', hrun, hw, hs'⟩ := validateActive_of_scan_ok client hs hactive hedl hscan
              rw [Collection.rescan_singleton_of_ok hedl hscan, bind_of_ok hrun]
              exact ⟨rfl, hw, hs'⟩
        · have hnone : ∀ d', h.workspace.activeDocument = some d' → ¬d'.isEdl = true := by
            simp [hactive, hedl]
          obtain ⟨h', hrun, hw, hs'⟩ := validateActive_of_no_document client hs hnone
          rw [Collection.rescan_singleton_of_not_edl hedl, bind_of_ok hrun]
          exact ⟨rfl, hw, hs'⟩
  · rw [if_neg hname]
    unfold execute
    rw [get_bind, hs.commands, if_neg hname]
    exact ⟨rfl, rfl, hs⟩

/-! ### Requests in general -/

/-- **A host with one service and nobody else behaves as its linted workspace.** -/
theorem perform_of_singleService (client : Client σ) (hs : h.SingleService s l linter c)
    (r : Request) :
    Host.EndsAs s l linter (perform client r h)
      (LintedWorkspace.step linter.rules ⟨h.workspace, c⟩ r) := by
  cases r with
  | openDocument uri text language => exact open_of_singleService client hs uri text language
  | changeDocument uri text => exact change_of_singleService client hs uri text
  | closeDocument uri => exact close_of_singleService client hs uri
  | setActive uri => exact setActive_of_singleService client hs uri
  | updateConfiguration entries => exact update_of_singleService client hs entries
  | execute name => exact command_of_singleService client hs name

/-- Along a run of requests the host and its linted workspace stay together. -/
theorem after_of_singleService (client : Client σ) (hs : h.SingleService s l linter c)
    (rs : List Request) :
    ∃ c', LintedWorkspace.run linter.rules ⟨h.workspace, c⟩ rs =
        ⟨(h.after client rs).workspace, c'⟩ ∧
      (h.after client rs).SingleService s l linter c' := by
  induction rs generalizing h c with
  | nil => exact ⟨c, rfl, hs⟩
  | cons r rs ih =>
      obtain ⟨-, hw, hs'⟩ := perform_of_singleService client hs r
      obtain ⟨c', hrun, hs''⟩ := ih hs'
      rw [hw] at hrun
      rw [Host.after_cons]
      exact ⟨c', hrun, hs''⟩

/-- From the activation of a service on a bare host on, the host behaves as the linted workspace
with which the service starts. -/
theorem after_of_activate (client : Client σ) (hb : h.Bare) {rules : List Lint.Rule}
    {h₁ : Host σ} (hactivate : activate client rules h = (.ok s, h₁)) (rs : List Request) :
    ∃ l linter c, linter.rules = rules ∧
      LintedWorkspace.run rules ⟨h.workspace, (h.firstScan rules).2⟩ rs =
        ⟨(h₁.after client rs).workspace, c⟩ ∧
      (h₁.after client rs).SingleService s l linter c := by
  obtain ⟨-, hw, l, linter, rfl, hs⟩ := singleService_of_activate client hb hactivate
  obtain ⟨c, hrun, hs'⟩ := after_of_singleService client hs rs
  rw [hw] at hrun
  exact ⟨l, linter, c, rfl, hrun, hs'⟩

end HostM

end Edl
