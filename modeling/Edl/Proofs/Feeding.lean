/-
What a linter does to a collection that nobody observes.

As long as a collection has no observers, writing to it reaches no client, and what a linter does on
the host can be said outright: scanning documents appends to the log and replaces the collection by
its `Edl.Collection.rescan`, and touches nothing else.  The collection of a service starts without
observers, so this is what happens when a service is activated and while it is the only listener.

Observers are harmless if they do not fail and leave nothing but messages, log records and notes of
their own behind.  With such observers a collection is disposed as it is with none.

Main definitions:

* `Edl.Host.Feeds` — a linter whose collection is alive and has no observers;
* `Edl.Host.withStore` — the host with one collection replaced and records added to the log;
* `Edl.Client.Harmless`, `Edl.Host.Told` — a harmless observer, and the host after such observers
  were told something;
* `Edl.Host.Watched` — a linter whose collection is alive and has harmless observers only.

Main results:

* `Edl.HostM.validate_of_feeds` — scanning one document;
* `Edl.HostM.forM_validate_of_feeds`, `Edl.HostM.revalidate_of_feeds` — scanning many;
* `Edl.HostM.deleteEntry_of_unobserved`, `Edl.HostM.disposeCollection_of_harmless` — taking
  entries away.
-/

import Edl.Proofs.Operation
import Edl.Proofs.Rescan

set_option relaxedAutoImplicit false
set_option autoImplicit false

namespace Edl

namespace Host

variable {σ : Type}

/-- The host with a collection replaced and records added to its log. -/
def withStore (h : Host σ) (id : CollectionId) (c : Collection) (records : List Log.Record) :
    Host σ :=
  { h with
    log := h.log ++ records
    collections := h.collections.modify id.number fun _ => c }

/-- The linter writes to a collection that is alive and has no observers. -/
structure Feeds (h : Host σ) (id : LinterId) (linter : Linter) (c : Collection) : Prop where
  linter_eq : h.linters.get? id.number = some linter
  collection_eq : h.collection? linter.collection = some c
  alive : c.disposed = false
  unobserved : c.emitter.listeners = []

end Host

section

variable {σ : Type}

/-- Told about a document, the observer does not fail, and leaves nothing behind but messages, log
records and what it remembers. -/
def Client.Harmless (client : Client σ) (name : String) : Prop :=
  ∀ uri h, ∃ messages log state,
    client.notify name (.diagnostics uri) h = (.ok (), { h with messages, log, client := state })

/-- The host after harmless observers were told something; without observers it is the same. -/
def Host.Told (observers : List String) (h h' : Host σ) : Prop :=
  ∃ messages log state, h' = { h with messages, log, client := state } ∧
    (observers = [] → messages = h.messages ∧ log = h.log ∧ state = h.client)

/-- The linter writes to a collection that is alive and has harmless observers only. -/
structure Host.Watched (h : Host σ) (client : Client σ) (id : LinterId) (linter : Linter)
    (c : Collection) : Prop where
  linter_eq : h.linters.get? id.number = some linter
  collection_eq : h.collection? linter.collection = some c
  alive : c.disposed = false
  harmless : ∀ name ∈ c.emitter.listeners, client.Harmless name

end

namespace Host

variable {σ : Type} {h h' h'' : Host σ} {id : CollectionId} {c c' : Collection}
  {observers : List String}

theorem Told.refl (observers : List String) (h : Host σ) : h.Told observers h :=
  ⟨h.messages, h.log, h.client, rfl, fun _ => ⟨rfl, rfl, rfl⟩⟩

theorem Told.trans (htold : h.Told observers h') (htold' : h'.Told observers h'') :
    h.Told observers h'' := by
  obtain ⟨messages, log, state, rfl, hsame⟩ := htold
  obtain ⟨messages', log', state', rfl, hsame'⟩ := htold'
  refine ⟨messages', log', state', rfl, fun hnobody => ?_⟩
  obtain ⟨rfl, rfl, rfl⟩ := hsame hnobody
  exact hsame' hnobody

theorem Told.eq_of_nobody (htold : h.Told [] h') : h' = h := by
  obtain ⟨messages, log, state, rfl, hsame⟩ := htold
  obtain ⟨rfl, rfl, rfl⟩ := hsame rfl
  rfl

theorem Told.collection?_eq (htold : h.Told observers h') :
    h'.collection? id = h.collection? id := by
  obtain ⟨messages, log, state, rfl, -⟩ := htold
  rfl

theorem Feeds.watched {linterId : LinterId} {linter : Linter} (hf : h.Feeds linterId linter c)
    (client : Client σ) : h.Watched client linterId linter c :=
  ⟨hf.linter_eq, hf.collection_eq, hf.alive, by simp [hf.unobserved]⟩

theorem collection?_withStore_self (hc : h.collection? id = some c) (records : List Log.Record) :
    (h.withStore id c' records).collection? id = some c' := by
  change (h.collections.modify id.number fun _ => c').get? id.number = some c'
  have hitem : h.collections.get? id.number = some c := hc
  rw [Registry.get?_modify_self, hitem]
  rfl

theorem setCollection_eq_withStore (h : Host σ) (id : CollectionId) (c : Collection) :
    h.setCollection id c = h.withStore id c [] := by
  rw [withStore, List.append_nil]
  rfl

/-- Writing the collection that is there, and nothing to the log, changes nothing. -/
theorem withStore_self (hc : h.collection? id = some c) : h.withStore id c [] = h := by
  unfold withStore
  rw [Registry.modify_of_get? hc rfl, List.append_nil]

theorem withStore_withStore (h : Host σ) (id : CollectionId) (c c' : Collection)
    (records records' : List Log.Record) :
    (h.withStore id c records).withStore id c' records' =
      h.withStore id c' (records ++ records') := by
  unfold withStore
  rw [Registry.modify_modify, List.append_assoc]
  rfl

theorem Feeds.withStore {linterId : LinterId} {linter : Linter}
    (hf : h.Feeds linterId linter c) (halive : c'.disposed = false)
    (hunobserved : c'.emitter.listeners = []) (records : List Log.Record) :
    (h.withStore linter.collection c' records).Feeds linterId linter c' where
  linter_eq := hf.linter_eq
  collection_eq := collection?_withStore_self hf.collection_eq records
  alive := halive
  unobserved := hunobserved

end Host

namespace HostM

variable {σ : Type} {h : Host σ} {c : Collection}

/-! ### Single entries -/

/-- Nobody is told about a collection that has no observers. -/
theorem publish_of_unobserved (client : Client σ) {id : CollectionId}
    (hc : h.collection? id = some c) (hunobserved : c.emitter.listeners = []) (uri : String) :
    publish client id uri h = (.ok (), h) := by
  unfold publish
  rw [get_bind, hc]
  simp only [hunobserved]
  rfl

/-- A stale write leaves the host as it is. -/
theorem writeEntry_of_stale (client : Client σ) {id : CollectionId} {uri : String} {e : Entry}
    (hc : h.collection? id = some c) (halive : c.disposed = false)
    (hstale : c.isStale uri e = true) : writeEntry client id uri e h = (.ok false, h) := by
  unfold writeEntry
  rw [get_bind, hc]
  simp only [Collection.write_of_alive halive, if_pos hstale]
  rw [bind_of_ok (ofExcept_apply _ h)]
  rfl

/-- A write that is not stale is stored before anybody is told about it. -/
theorem writeEntry_of_not_stale (client : Client σ) {id : CollectionId} {uri : String} {e : Entry}
    (hc : h.collection? id = some c) (halive : c.disposed = false)
    (hstale : ¬c.isStale uri e = true) :
    writeEntry client id uri e h = (do publish client id uri; return true : HostM σ Bool)
      (h.setCollection id { c with entries := c.entries.insert uri e }) := by
  unfold writeEntry
  rw [get_bind, hc]
  simp only [Collection.write_of_alive halive, if_neg hstale]
  rw [bind_of_ok (ofExcept_apply _ h)]
  rfl

theorem writeEntry_of_unobserved (client : Client σ) {id : CollectionId}
    (hc : h.collection? id = some c) (halive : c.disposed = false)
    (hunobserved : c.emitter.listeners = []) (uri : String) (e : Entry) :
    writeEntry client id uri e h =
      (.ok (!c.isStale uri e), h.withStore id (c.accept uri e) []) := by
  by_cases hstale : c.isStale uri e = true
  · rw [writeEntry_of_stale client hc halive hstale, Collection.accept, if_pos hstale,
      Host.withStore_self hc, hstale]
    rfl
  · have haccept : { c with entries := c.entries.insert uri e } = c.accept uri e := by
      rw [Collection.accept, if_neg hstale]
    have hstored : (h.withStore id (c.accept uri e) []).collection? id = some (c.accept uri e) :=
      Host.collection?_withStore_self hc []
    have hquiet : (c.accept uri e).emitter.listeners = [] := by
      rw [Collection.accept_emitter, hunobserved]
    rw [writeEntry_of_not_stale client hc halive hstale, haccept, Host.setCollection_eq_withStore,
      bind_of_ok (publish_of_unobserved client hstored hquiet uri), Bool.eq_false_iff.2 hstale]
    rfl

theorem deleteEntry_of_unobserved (client : Client σ) {id : CollectionId}
    (hc : h.collection? id = some c) (halive : c.disposed = false)
    (hunobserved : c.emitter.listeners = []) (uri : String) :
    deleteEntry client id uri h = (.ok (), h.withStore id (c.forget uri) []) := by
  unfold deleteEntry
  rw [get_bind, hc]
  simp only [Collection.delete_of_alive halive]
  rw [bind_of_ok (ofExcept_apply _ h)]
  by_cases hcontains : c.entries.contains uri
  · simp only [hcontains, if_true]
    rw [modify_bind, Host.setCollection_eq_withStore]
    have hforgot : (h.withStore id (c.forget uri) []).collection? id = some (c.forget uri) :=
      Host.collection?_withStore_self hc []
    exact publish_of_unobserved client hforgot hunobserved uri
  · -- there was nothing to delete
    simp only [hcontains, if_false, Bool.false_eq_true]
    rw [Collection.forget_of_not_contains (Bool.not_eq_true _ ▸ hcontains), Host.withStore_self hc]
    rfl

/-! ### Harmless observers -/

/-- Telling harmless observers about a document, one after another. -/
theorem forM_notify_of_harmless (client : Client σ) {names : List String}
    (hharmless : ∀ name ∈ names, client.Harmless name) (uri : String) (h : Host σ) :
    ∃ h', (names.forM fun name => client.notify name (.diagnostics uri)) h = (.ok (), h') ∧
      h.Told names h' := by
  induction names generalizing h with
  | nil => exact ⟨h, rfl, .refl _ h⟩
  | cons name names ih =>
      obtain ⟨hfirst, hothers⟩ := List.forall_mem_cons.1 hharmless
      obtain ⟨messages, log, state, hnotify⟩ := hfirst uri h
      obtain ⟨_, hrest, messages', log', state', rfl, -⟩ :=
        ih hothers { h with messages, log, client := state }
      exact ⟨_, (bind_of_ok hnotify).trans hrest, messages', log', state', rfl, nofun⟩

theorem publish_of_harmless (client : Client σ) {id : CollectionId}
    (hc : h.collection? id = some c)
    (hharmless : ∀ name ∈ c.emitter.listeners, client.Harmless name) (uri : String) :
    ∃ h', publish client id uri h = (.ok (), h') ∧ h.Told c.emitter.listeners h' := by
  unfold publish
  rw [get_bind, hc]
  exact forM_notify_of_harmless client hharmless uri h

/-- Telling them about many documents. -/
theorem forM_publish_of_harmless (client : Client σ) {id : CollectionId}
    (hc : h.collection? id = some c)
    (hharmless : ∀ name ∈ c.emitter.listeners, client.Harmless name) (uris : List String) :
    ∃ h', (uris.forM fun uri => publish client id uri) h = (.ok (), h') ∧
      h.Told c.emitter.listeners h' := by
  induction uris generalizing h with
  | nil => exact ⟨h, rfl, .refl _ h⟩
  | cons uri uris ih =>
      obtain ⟨h₁, hfirst, htold⟩ := publish_of_harmless client hc hharmless uri
      obtain ⟨h₂, hrest, htold'⟩ := ih (htold.collection?_eq.trans hc)
      exact ⟨h₂, (bind_of_ok hfirst).trans hrest, htold.trans htold'⟩

/-- Disposing a collection with harmless observers empties it and marks it. -/
theorem disposeCollection_of_harmless (client : Client σ) {id : CollectionId}
    (hc : h.collection? id = some c) (halive : c.disposed = false)
    (hharmless : ∀ name ∈ c.emitter.listeners, client.Harmless name) :
    ∃ h', disposeCollection client id h = (.ok (), h') ∧
      (h.withStore id c.clear.retire []).Told c.emitter.listeners h' := by
  have hcleared : (h.withStore id c.clear []).collection? id = some c.clear :=
    Host.collection?_withStore_self hc []
  obtain ⟨h₁, hpublish, messages, log, state, rfl, hquiet⟩ :=
    forM_publish_of_harmless client hcleared hharmless c.entries.keys
  have hclear : clearEntries client id h =
      (.ok (), { h.withStore id c.clear [] with messages, log, client := state }) := by
    unfold clearEntries
    rw [get_bind, hc]
    dsimp only
    rw [modify_bind, Host.setCollection_eq_withStore]
    exact hpublish
  refine ⟨{ h.withStore id c.clear.retire [] with messages, log, client := state }, ?_, messages,
    log, state, rfl, hquiet⟩
  unfold disposeCollection
  rw [get_bind, hc]
  simp only [halive, if_false, Bool.false_eq_true]
  rw [bind_of_ok hclear, modify_apply]
  simp only [Host.withStore, Registry.modify_modify, Function.comp_def]

/-! ### Scans -/

variable {id : LinterId} {linter : Linter}

/-- Scanning a document: a failed scan changes nothing, a complete one is written as a whole. -/
theorem validate_of_feeds (client : Client σ) (hf : h.Feeds id linter c) (d : Document) :
    validate client id d h =
      match h.workspace.scan linter.rules d with
      | .ok o =>
          (.ok ((c.accept d.uri (d.entry o)).get d.uri),
            h.withStore linter.collection (c.accept d.uri (d.entry o)) [o.record d.uri])
      | .error f => (.error f, h) := by
  unfold validate
  rw [get_bind, hf.linter_eq]
  dsimp only
  rw [get_bind]
  cases hsettings : h.workspace.settings with
  | error f =>
      rw [Workspace.scan_of_error hsettings, bind_of_error (ofExcept_apply _ h)]
  | ok settings =>
      rw [Workspace.scan_of_settings hsettings, bind_of_ok (ofExcept_apply _ h)]
      cases hrun : Lint.run d.text settings linter.rules with
      | error f =>
          have hvalidate : Lint.validate d.uri d.text settings linter.rules = .error f := by
            rw [Lint.validate, hrun]
            rfl
          rw [hvalidate, bind_of_error (ofExcept_apply _ h)]
      | ok o =>
          have hvalidate : Lint.validate d.uri d.text settings linter.rules =
              .ok (o.diagnostics, o.record d.uri) := by
            rw [Lint.validate, hrun]
            rfl
          -- the record is logged first, and then the entry is written
          have hf' := hf.withStore hf.alive hf.unobserved [o.record d.uri]
          have hlogged : h.withStore linter.collection c [o.record d.uri] =
              { h with log := h.log ++ [o.record d.uri] } := by
            unfold Host.withStore
            rw [Registry.modify_of_get? hf.collection_eq rfl]
          have hwrite := writeEntry_of_unobserved client hf'.collection_eq hf.alive hf.unobserved
            d.uri (d.entry o)
          rw [Host.withStore_withStore, hlogged] at hwrite
          rw [hvalidate, bind_of_ok (ofExcept_apply _ h), bind_of_ok (write_apply _ h)]
          refine (bind_of_ok hwrite).trans ?_
          rw [get_bind, Host.collection?_withStore_self hf.collection_eq]
          rfl

theorem validate_of_scan_ok (client : Client σ) (hf : h.Feeds id linter c) {d : Document}
    {o : Lint.Outcome} (hscan : h.workspace.scan linter.rules d = .ok o) :
    validate client id d h =
      (.ok ((c.accept d.uri (d.entry o)).get d.uri),
        h.withStore linter.collection (c.accept d.uri (d.entry o)) [o.record d.uri]) := by
  rw [validate_of_feeds client hf, hscan]

theorem validate_of_scan_error (client : Client σ) (hf : h.Feeds id linter c) {d : Document}
    {f : Fault} (hscan : h.workspace.scan linter.rules d = .error f) :
    validate client id d h = (.error f, h) := by
  rw [validate_of_feeds client hf, hscan]

/-- Scanning documents one after another carries out `Collection.rescan` on the collection. -/
theorem forM_validate_of_feeds (client : Client σ) (hf : h.Feeds id linter c)
    (ds : List Document) :
    ∃ records,
      (ds.forM fun d => do
        if d.isEdl then
          let _ ← validate client id d) h =
        ((Collection.rescan (h.workspace.scan linter.rules) ds c).1,
          h.withStore linter.collection
            (Collection.rescan (h.workspace.scan linter.rules) ds c).2 records) := by
  induction ds generalizing h c with
  | nil => exact ⟨[], by rw [Collection.rescan, Host.withStore_self hf.collection_eq]; rfl⟩
  | cons d ds ih =>
      rw [List.forM_eq_forM, List.forM_cons]
      by_cases hedl : d.isEdl = true
      · rw [Collection.rescan, if_pos hedl, if_pos hedl]
        cases hscan : h.workspace.scan linter.rules d with
        | error f =>
            have hfail := validate_of_scan_error client hf hscan
            refine ⟨[], ?_⟩
            rw [Host.withStore_self hf.collection_eq]
            exact bind_of_error (bind_of_error hfail)
        | ok o =>
            have halive : (c.accept d.uri (d.entry o)).disposed = false := by
              rw [Collection.accept_disposed, hf.alive]
            have hunobserved : (c.accept d.uri (d.entry o)).emitter.listeners = [] := by
              rw [Collection.accept_emitter, hf.unobserved]
            have hf' := hf.withStore halive hunobserved [o.record d.uri]
            have hdone : (do let _ ← validate client id d : HostM σ PUnit) h = (.ok ⟨⟩, _) :=
              bind_of_ok (validate_of_scan_ok client hf hscan)
            obtain ⟨records, hrest⟩ := ih hf'
            refine ⟨o.record d.uri :: records, ?_⟩
            rw [Host.withStore_withStore] at hrest
            exact (bind_of_ok hdone).trans hrest
      · obtain ⟨records, hrest⟩ := ih hf
        refine ⟨records, ?_⟩
        rw [Collection.rescan, if_neg hedl, if_neg hedl]
        exact hrest

/-- Scanning all open documents. -/
theorem revalidate_of_feeds (client : Client σ) (hf : h.Feeds id linter c) :
    ∃ records,
      revalidate client id h =
        ((Collection.rescan (h.workspace.scan linter.rules) h.workspace.documents.values c).1,
          h.withStore linter.collection (Collection.rescan (h.workspace.scan linter.rules)
            h.workspace.documents.values c).2 records) :=
  forM_validate_of_feeds client hf h.workspace.documents.values

end HostM

end Edl
