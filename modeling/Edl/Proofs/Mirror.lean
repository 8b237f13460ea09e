/-
An observer that keeps a copy of a collection.

An observer starts with a copy of the collection.  Whenever it is told that the entry of a document
changed, it looks the entry up and writes what it finds into its copy, or drops the entry from the
copy if there is none.  For the copy to be right after every operation, a change must be carried out
before it is told, and all of it must be told before the observers are let go.  For the observer not
to be bothered in vain, nothing may be told about an operation that changes nothing.

Main definitions:

* `Edl.Table.refresh` — a table brought up to date under one key;
* `Edl.Observes` — an observer that keeps a copy, next to others who leave this collection alone;
* `Edl.Collection.Operation`, `Edl.HostM.operate` — the operations on a collection;
* `Edl.Host.Mirrored` — a collection whose observer has it right.

Main results:

* `Edl.Observes.publish_of_count` — what is published reaches the observer once;
* `Edl.Observes.set`, `Edl.Observes.delete`, `Edl.Observes.clear`, `Edl.Observes.dispose` — what the
  observer is told about each operation;
* `Edl.Observes.copy_follows_the_collection` — **the copy is right after every operation, and the
  observer is told exactly once about each document that was written or removed**.
-/

import Edl.Proofs.Feeding

set_option relaxedAutoImplicit false
set_option autoImplicit false

namespace Edl

/-! ### Tables brought up to date -/

namespace Table

variable {α : Type}

/-- The table with what was found under a key in place of what it held there. -/
def refresh (t : Table α) (key : String) : Option α → Table α
  | some value => t.insert key value
  | none => t.erase key

/-- Erasing keys one after another leaves the entries of the other keys. -/
theorem entries_foldl_erase (keys : List String) (t : Table α) :
    (keys.foldl erase t).entries = t.entries.filter fun entry => decide (entry.1 ∉ keys) := by
  induction keys generalizing t with
  | nil => exact (List.filter_eq_self.2 (by simp)).symm
  | cons key keys ih =>
      rw [List.foldl_cons, ih, entries_erase, List.filter_filter]
      refine List.filter_congr fun entry _ => ?_
      simp only [List.mem_cons, not_or, Bool.decide_and, bne, Bool.and_comm]
      congr 1
      exact (decide_not ..).symm

/-- Erasing all keys of a table leaves nothing. -/
theorem foldl_erase_keys (t : Table α) : t.keys.foldl erase t = empty := by
  refine ext_entries ?_
  rw [entries_foldl_erase, entries_empty, List.filter_eq_nil_iff]
  intro entry hmem
  have hkey : entry.1 ∈ t.keys := List.mem_map.2 ⟨entry, hmem, rfl⟩
  simpa using hkey

end Table

/-! ### Observers -/

/-- Under its name the observer, which is told about a document, brings its copy of the entry up to
date with the collection, and notes that it was told.  Whoever else is told leaves this collection,
the copy and the notes alone.  None of them fails. -/
structure Observes {σ : Type} (client : Client σ) (name : String) (id : CollectionId)
    (copy : σ → Table Entry) (told : σ → List String) : Prop where
  own : ∀ uri h, ∃ h', client.notify name (.diagnostics uri) h = (.ok (), h') ∧
    h'.collection? id = h.collection? id ∧ told h'.client = told h.client ++ [uri] ∧
    copy h'.client =
      (copy h.client).refresh uri ((h.collection? id).bind fun c => c.entries.find? uri)
  others : ∀ other uri h, other ≠ name → ∃ h',
    client.notify other (.diagnostics uri) h = (.ok (), h') ∧
    h'.collection? id = h.collection? id ∧ told h'.client = told h.client ∧
    copy h'.client = copy h.client

namespace Observes

open HostM

variable {σ : Type} {client : Client σ} {name : String} {id : CollectionId}
  {copy : σ → Table Entry} {told : σ → List String}

/-- Between two hosts nothing happened to the collection, but the observer was told about some
documents and has now this copy. -/
structure Heard (id : CollectionId) (copy : σ → Table Entry) (told : σ → List String)
    (h h' : Host σ) (uris : List String) (t : Table Entry) : Prop where
  collection?_eq : h'.collection? id = h.collection? id
  told_eq : told h'.client = told h.client ++ uris
  copy_eq : copy h'.client = t

theorem Heard.trans {h h' h'' : Host σ} {uris uris' : List String} {t t' : Table Entry}
    (hfirst : Heard id copy told h h' uris t) (hthen : Heard id copy told h' h'' uris' t') :
    Heard id copy told h h'' (uris ++ uris') t' where
  collection?_eq := hthen.collection?_eq.trans hfirst.collection?_eq
  told_eq := by rw [hthen.told_eq, hfirst.told_eq, List.append_assoc]
  copy_eq := hthen.copy_eq

variable (hobs : Observes client name id copy told)

include hobs

/-- The observer is not told what only others are told. -/
theorem forM_notify_of_not_mem {listeners : List String} (hname : name ∉ listeners) (uri : String)
    (h : Host σ) :
    ∃ h', (listeners.forM fun n => client.notify n (.diagnostics uri) : HostM σ PUnit) h =
        (.ok (), h') ∧ Heard id copy told h h' [] (copy h.client) := by
  induction listeners generalizing h with
  | nil => exact ⟨h, rfl, rfl, by simp, rfl⟩
  | cons other listeners ih =>
      rw [List.mem_cons, not_or] at hname
      obtain ⟨h₁, hrun, hcollection, htold, hcopy⟩ := hobs.others other uri h (Ne.symm hname.1)
      obtain ⟨h₂, hrest, hheard⟩ := ih hname.2 h₁
      have hfirst : Heard id copy told h h₁ [] (copy h.client) :=
        ⟨hcollection, by simp [htold], hcopy⟩
      rw [hcopy] at hheard
      exact ⟨h₂, (bind_of_ok hrun).trans hrest, hfirst.trans hheard⟩

/-- An observer who is there once is told once. -/
theorem forM_notify_of_count {listeners : List String} (hcount : listeners.count name = 1)
    (uri : String) (h : Host σ) :
    ∃ h', (listeners.forM fun n => client.notify n (.diagnostics uri) : HostM σ PUnit) h =
        (.ok (), h') ∧
      Heard id copy told h h' [uri]
        ((copy h.client).refresh uri ((h.collection? id).bind fun c => c.entries.find? uri)) := by
  induction listeners generalizing h with
  | nil => simp at hcount
  | cons other listeners ih =>
      by_cases hother : other = name
      · subst hother
        rw [List.count_cons_self, Nat.succ_inj, List.count_eq_zero] at hcount
        obtain ⟨h₁, hrun, hcollection, htold, hcopy⟩ := hobs.own uri h
        obtain ⟨h₂, hrest, hheard⟩ := hobs.forM_notify_of_not_mem hcount uri h₁
        have hfirst : Heard id copy told h h₁ [uri] _ := ⟨hcollection, htold, hcopy⟩
        rw [hcopy] at hheard
        exact ⟨h₂, (bind_of_ok hrun).trans hrest, hfirst.trans hheard⟩
      · rw [List.count_cons_of_ne hother] at hcount
        obtain ⟨h₁, hrun, hcollection, htold, hcopy⟩ := hobs.others other uri h hother
        obtain ⟨h₂, hrest, hheard⟩ := ih hcount h₁
        have hfirst : Heard id copy told h h₁ [] (copy h.client) :=
          ⟨hcollection, by simp [htold], hcopy⟩
        rw [hfirst.collection?_eq, hcopy] at hheard
        exact ⟨h₂, (bind_of_ok hrun).trans hrest, hfirst.trans hheard⟩

/-- What is published reaches the observer once. -/
theorem publish_of_count {h : Host σ} {c : Collection} (hc : h.collection? id = some c)
    (hcount : c.emitter.listeners.count name = 1) (uri : String) :
    ∃ h', publish client id uri h = (.ok (), h') ∧
      Heard id copy told h h' [uri] ((copy h.client).refresh uri (c.entries.find? uri)) := by
  obtain ⟨h', hrun, hheard⟩ := hobs.forM_notify_of_count hcount uri h
  refine ⟨h', ?_, ?_⟩
  · unfold publish
    rw [get_bind, hc]
    exact hrun
  · rwa [hc] at hheard

/-- When all entries are gone, publishing documents drops them from the copy. -/
theorem forM_publish_of_count {h : Host σ} {c : Collection} (hc : h.collection? id = some c)
    (hempty : c.entries = .empty) (hcount : c.emitter.listeners.count name = 1)
    (uris : List String) :
    ∃ h', (uris.forM fun uri => publish client id uri) h = (.ok (), h') ∧
      Heard id copy told h h' uris (uris.foldl Table.erase (copy h.client)) := by
  induction uris generalizing h with
  | nil => exact ⟨h, rfl, rfl, by simp, rfl⟩
  | cons uri uris ih =>
      obtain ⟨h₁, hrun, hheard⟩ := hobs.publish_of_count hc hcount uri
      rw [hempty, Table.find?_empty] at hheard
      obtain ⟨h₂, hrest, hheard'⟩ := ih (hheard.collection?_eq.trans hc)
      rw [hheard.copy_eq] at hheard'
      exact ⟨h₂, (bind_of_ok hrun).trans hrest, hheard.trans hheard'⟩

end Observes

/-! ### Operations -/

/-- An operation on a collection. -/
inductive Collection.Operation where
  | set (uri : String) (e : Entry)
  | delete (uri : String)
  | clear
  | dispose

/-- Carries out an operation on a collection. -/
def HostM.operate {σ : Type} (client : Client σ) (id : CollectionId) :
    Collection.Operation → HostM σ Unit
  | .set uri e => discard (writeEntry client id uri e)
  | .delete uri => deleteEntry client id uri
  | .clear => clearEntries client id
  | .dispose => disposeCollection client id

/-- The host after operations on a collection, whether they are refused or not. -/
def Host.afterOperations {σ : Type} (client : Client σ) (id : CollectionId)
    (operations : List Collection.Operation) (h : Host σ) : Host σ :=
  operations.foldl (fun h operation => (HostM.operate client id operation h).2) h

/-- The copy of the observer is right, and the observer is there once or will never be needed. -/
structure Host.Mirrored {σ : Type} (h : Host σ) (name : String) (id : CollectionId)
    (copy : σ → Table Entry) (c : Collection) : Prop where
  collection_eq : h.collection? id = some c
  copy_eq : copy h.client = c.entries
  listening : c.emitter.listeners.count name = 1 ∨ c.disposed = true ∧ c.entries = .empty

namespace HostM

variable {σ : Type} {h : Host σ} {id : CollectionId} {c : Collection}

theorem collection?_setCollection (hc : h.collection? id = some c) (c' : Collection) :
    (h.setCollection id c').collection? id = some c' := by
  rw [Host.setCollection_eq_withStore]
  exact Host.collection?_withStore_self hc []

theorem checkAlive_of_disposed (h : c.disposed = true) :
    c.checkAlive = .error (.collectionDisposed c.name) := by
  rw [Collection.checkAlive, if_pos h]

/-- A disposed collection refuses writes. -/
theorem writeEntry_of_disposed (client : Client σ) (hc : h.collection? id = some c)
    (hdisposed : c.disposed = true) (uri : String) (e : Entry) :
    writeEntry client id uri e h = (.error (.collectionDisposed c.name), h) := by
  have hwrite : c.write uri e = .error (.collectionDisposed c.name) := by
    rw [Collection.write, checkAlive_of_disposed hdisposed]
    rfl
  unfold writeEntry
  rw [get_bind, hc]
  dsimp only
  rw [hwrite]
  rfl

theorem deleteEntry_of_disposed (client : Client σ) (hc : h.collection? id = some c)
    (hdisposed : c.disposed = true) (uri : String) :
    deleteEntry client id uri h = (.error (.collectionDisposed c.name), h) := by
  have hdelete : c.delete uri = .error (.collectionDisposed c.name) := by
    rw [Collection.delete, checkAlive_of_disposed hdisposed]
    rfl
  unfold deleteEntry
  rw [get_bind, hc]
  dsimp only
  rw [hdelete]
  rfl

theorem deleteEntry_of_absent (client : Client σ) (hc : h.collection? id = some c)
    (halive : c.disposed = false) {uri : String} (habsent : uri ∉ c.entries.keys) :
    deleteEntry client id uri h = (.ok (), h) := by
  unfold deleteEntry
  rw [get_bind, hc]
  dsimp only
  rw [Collection.delete_of_alive halive, Table.contains_eq_false_iff.2 habsent]
  rfl

/-- An entry is deleted before anybody is told about it. -/
theorem deleteEntry_of_present (client : Client σ) (hc : h.collection? id = some c)
    (halive : c.disposed = false) {uri : String} (hpresent : uri ∈ c.entries.keys) :
    deleteEntry client id uri h =
      publish client id uri (h.setCollection id (c.forget uri)) := by
  unfold deleteEntry
  rw [get_bind, hc]
  dsimp only
  rw [Collection.delete_of_alive halive, Table.contains_iff.2 hpresent]
  rfl

theorem disposeCollection_of_disposed (client : Client σ) (hc : h.collection? id = some c)
    (hdisposed : c.disposed = true) : disposeCollection client id h = (.ok (), h) := by
  unfold disposeCollection
  rw [get_bind, hc]
  dsimp only
  rw [if_pos hdisposed]
  rfl

end HostM

namespace Observes

open HostM

variable {σ : Type} {client : Client σ} {name : String} {id : CollectionId}
  {copy : σ → Table Entry} {told : σ → List String} {h : Host σ} {c : Collection}

theorem count_of_alive (hm : h.Mirrored name id copy c) (halive : c.disposed = false) :
    c.emitter.listeners.count name = 1 := by
  rcases hm.listening with hcount | ⟨hdisposed, -⟩
  · exact hcount
  · rw [halive] at hdisposed
    cases hdisposed

/-- After the operation the copy is right again, and the observer was told once about each document
that was written or removed. -/
structure Announces (client : Client σ) (name : String) (id : CollectionId)
    (copy : σ → Table Entry) (told : σ → List String) (h : Host σ) (c : Collection)
    (operation : Collection.Operation) (c' : Collection) (uris : List String) : Prop where
  mirrored : (HostM.operate client id operation h).2.Mirrored name id copy c'
  told_eq : told (HostM.operate client id operation h).2.client = told h.client ++ uris
  nodup : uris.Nodup
  mem_iff : ∀ uri, uri ∈ uris ↔
    (∃ e, operation = .set uri e ∧ (writeEntry client id uri e h).1 = .ok true) ∨
      uri ∈ c.entries.keys ∧ uri ∉ c'.entries.keys

variable (hobs : Observes client name id copy told)

include hobs

/-- The observer is told about a write that is accepted. -/
theorem set (hm : h.Mirrored name id copy c) (halive : c.disposed = false) {uri : String}
    {e : Entry} (hstale : c.isStale uri e = false) :
    ∃ h', writeEntry client id uri e h = (.ok true, h') ∧
      h'.Mirrored name id copy { c with entries := c.entries.insert uri e } ∧
      told h'.client = told h.client ++ [uri] := by
  have hcount := count_of_alive hm halive
  obtain ⟨h', hrun, hheard⟩ := hobs.publish_of_count
    (collection?_setCollection hm.collection_eq { c with entries := c.entries.insert uri e })
    hcount uri
  refine ⟨h', ?_, ⟨?_, ?_, .inl hcount⟩, hheard.told_eq⟩
  · rw [writeEntry_of_not_stale client hm.collection_eq halive (by simp [hstale]), bind_of_ok hrun]
    rfl
  · exact hheard.collection?_eq.trans (collection?_setCollection hm.collection_eq _)
  · rw [hheard.copy_eq, Table.find?_insert_self, ← hm.copy_eq]
    rfl

/-- The observer is told about an entry that is deleted. -/
theorem delete (hm : h.Mirrored name id copy c) (halive : c.disposed = false) {uri : String}
    (hpresent : uri ∈ c.entries.keys) :
    ∃ h', deleteEntry client id uri h = (.ok (), h') ∧
      h'.Mirrored name id copy (c.forget uri) ∧ told h'.client = told h.client ++ [uri] := by
  have hcount := count_of_alive hm halive
  obtain ⟨h', hrun, hheard⟩ := hobs.publish_of_count
    (collection?_setCollection hm.collection_eq (c.forget uri)) hcount uri
  refine ⟨h', ?_, ⟨?_, ?_, .inl hcount⟩, hheard.told_eq⟩
  · rw [deleteEntry_of_present client hm.collection_eq halive hpresent, hrun]
  · exact hheard.collection?_eq.trans (collection?_setCollection hm.collection_eq _)
  · have hgone : (c.forget uri).entries.find? uri = none := Table.find?_erase_self ..
    rw [hheard.copy_eq, hgone, Collection.forget, ← hm.copy_eq]
    rfl

/-- The observer is told about every entry when all are deleted. -/
theorem clear (hm : h.Mirrored name id copy c) :
    ∃ h', clearEntries client id h = (.ok (), h') ∧ h'.Mirrored name id copy c.clear ∧
      told h'.client = told h.client ++ c.entries.keys := by
  have hcleared := collection?_setCollection hm.collection_eq c.clear
  have hrun : clearEntries client id h =
      (c.entries.keys.forM fun uri => publish client id uri) (h.setCollection id c.clear) := by
    unfold clearEntries
    rw [get_bind, hm.collection_eq]
    rfl
  rw [hrun]
  rcases hm.listening with hcount | ⟨hdisposed, hempty⟩
  · obtain ⟨h', hpublish, hheard⟩ :=
      hobs.forM_publish_of_count hcleared rfl hcount c.entries.keys
    refine ⟨h', hpublish, ⟨hheard.collection?_eq.trans hcleared, ?_, .inl hcount⟩,
      hheard.told_eq⟩
    have hcopy : copy (h.setCollection id c.clear).client = c.entries := hm.copy_eq
    rw [hheard.copy_eq, hcopy, Table.foldl_erase_keys]
    rfl
  · -- nothing was left to delete
    rw [hempty]
    refine ⟨_, rfl, ⟨hcleared, ?_, .inr ⟨hdisposed, rfl⟩⟩, (List.append_nil _).symm⟩
    exact hm.copy_eq.trans hempty

/-- The observer is told about every entry before it is let go. -/
theorem dispose (hm : h.Mirrored name id copy c) (halive : c.disposed = false) :
    ∃ h', disposeCollection client id h = (.ok (), h') ∧
      h'.Mirrored name id copy c.clear.retire ∧
      told h'.client = told h.client ++ c.entries.keys := by
  obtain ⟨h₁, hclear, hm₁, htold⟩ := hobs.clear hm
  refine ⟨{ h₁ with collections := h₁.collections.modify id.number Collection.retire }, ?_,
    ⟨?_, hm₁.copy_eq, .inr ⟨rfl, rfl⟩⟩, htold⟩
  · unfold disposeCollection
    rw [get_bind, hm.collection_eq]
    dsimp only
    rw [halive, if_neg (by simp), bind_of_ok hclear]
    rfl
  · have hitem : h₁.collections.get? id.number = some c.clear := hm₁.collection_eq
    change (h₁.collections.modify id.number Collection.retire).get? id.number = _
    rw [Registry.get?_modify_self, hitem]
    rfl

omit hobs in
/-- An operation that changes nothing tells nothing. -/
theorem announces_of_unchanged (hm : h.Mirrored name id copy c) {operation : Collection.Operation}
    (hsame : (HostM.operate client id operation h).2 = h)
    (hset : ∀ uri e, operation = .set uri e → (writeEntry client id uri e h).1 ≠ .ok true) :
    Announces client name id copy told h c operation c [] where
  mirrored := by rwa [hsame]
  told_eq := by rw [hsame, List.append_nil]
  nodup := List.nodup_nil
  mem_iff uri := by
    refine iff_of_false List.not_mem_nil ?_
    rintro (⟨e, hoperation, haccepted⟩ | ⟨hmem, hnot⟩)
    · exact hset uri e hoperation haccepted
    · exact hnot hmem

theorem announces_set (hm : h.Mirrored name id copy c) (uri : String) (e : Entry) :
    ∃ c' uris, Announces client name id copy told h c (.set uri e) c' uris := by
  have hquiet : ∀ result, writeEntry client id uri e h = (result, h) → result ≠ .ok true →
      Announces client name id copy told h c (.set uri e) c [] := by
    intro result hrun hresult
    refine announces_of_unchanged hm ?_ ?_
    · rw [HostM.operate, discard_apply, hrun]
    · rintro uri' e' ⟨⟩
      rwa [hrun]
  cases hdisposed : c.disposed with
  | true =>
      exact ⟨c, [], hquiet _ (writeEntry_of_disposed client hm.collection_eq hdisposed uri e) nofun⟩
  | false =>
      cases hstale : c.isStale uri e with
      | true =>
          exact ⟨c, [],
            hquiet _ (writeEntry_of_stale client hm.collection_eq hdisposed hstale) nofun⟩
      | false =>
          obtain ⟨h', hrun, hm', htold⟩ := hobs.set hm hdisposed hstale
          have hafter : (HostM.operate client id (.set uri e) h).2 = h' := by
            rw [HostM.operate, discard_apply, hrun]
          refine ⟨_, [uri], hafter ▸ hm', hafter ▸ htold, by simp, fun k => ?_⟩
          rw [List.mem_singleton]
          constructor
          · rintro rfl
            exact .inl ⟨e, rfl, by rw [hrun]⟩
          · rintro (⟨e', heq, -⟩ | ⟨hmem, hnot⟩)
            · cases heq
              rfl
            · -- a write removes nothing
              refine absurd (Table.mem_keys_iff.2 ?_) hnot
              obtain ⟨value, hfind⟩ := Table.mem_keys_iff.1 hmem
              rw [Table.find?_insert]
              split
              · exact ⟨e, rfl⟩
              · exact ⟨value, hfind⟩

theorem announces_delete (hm : h.Mirrored name id copy c) (uri : String) :
    ∃ c' uris, Announces client name id copy told h c (.delete uri) c' uris := by
  have hquiet : ∀ result, deleteEntry client id uri h = (result, h) →
      Announces client name id copy told h c (.delete uri) c [] := by
    intro result hrun
    exact announces_of_unchanged hm (by rw [HostM.operate, hrun]) (fun _ _ => nofun)
  cases hdisposed : c.disposed with
  | true => exact ⟨c, [], hquiet _ (deleteEntry_of_disposed client hm.collection_eq hdisposed uri)⟩
  | false =>
      by_cases hpresent : uri ∈ c.entries.keys
      · obtain ⟨h', hrun, hm', htold⟩ := hobs.delete hm hdisposed hpresent
        have hafter : (HostM.operate client id (.delete uri) h).2 = h' := by
          rw [HostM.operate, hrun]
        refine ⟨_, [uri], hafter ▸ hm', hafter ▸ htold, by simp, fun k => ?_⟩
        have hkeys : (c.forget uri).entries.keys = c.entries.keys.filter (· != uri) :=
          Table.keys_erase ..
        rw [hkeys, List.mem_singleton, List.mem_filter]
        constructor
        · rintro rfl
          exact .inr ⟨hpresent, by simp⟩
        · rintro (⟨e, heq, -⟩ | ⟨hmem, hnot⟩)
          · cases heq
          · simpa [hmem] using hnot
      · exact ⟨c, [],
          hquiet _ (deleteEntry_of_absent client hm.collection_eq hdisposed hpresent)⟩

omit hobs in
/-- An operation that leaves nothing tells about everything there was. -/
theorem announces_of_emptied {operation : Collection.Operation} {h' : Host σ} {c' : Collection}
    (hafter : (HostM.operate client id operation h).2 = h') (hm' : h'.Mirrored name id copy c')
    (hempty : c'.entries = .empty) (htold : told h'.client = told h.client ++ c.entries.keys)
    (hset : ∀ uri e, operation ≠ .set uri e) :
    Announces client name id copy told h c operation c' c.entries.keys where
  mirrored := hafter ▸ hm'
  told_eq := hafter ▸ htold
  nodup := c.entries.distinct
  mem_iff uri := by
    have hnot : uri ∉ c'.entries.keys := by
      rw [hempty]
      exact List.not_mem_nil
    constructor
    · intro hmem
      exact .inr ⟨hmem, hnot⟩
    · rintro (⟨e, heq, -⟩ | ⟨hmem, -⟩)
      · exact absurd heq (hset uri e)
      · exact hmem

/-- Whatever the operation, the copy is right after it, and the observer was told exactly what it
has to know. -/
theorem announces_operate (hm : h.Mirrored name id copy c) (operation : Collection.Operation) :
    ∃ c' uris, Announces client name id copy told h c operation c' uris := by
  cases operation with
  | set uri e => exact hobs.announces_set hm uri e
  | delete uri => exact hobs.announces_delete hm uri
  | clear =>
      obtain ⟨h', hrun, hm', htold⟩ := hobs.clear hm
      exact ⟨_, _, announces_of_emptied (by rw [HostM.operate, hrun]) hm' rfl htold nofun⟩
  | dispose =>
      cases hdisposed : c.disposed with
      | true =>
          have hrun := disposeCollection_of_disposed client hm.collection_eq hdisposed
          exact ⟨c, [], announces_of_unchanged hm (by rw [HostM.operate, hrun]) fun _ _ => nofun⟩
      | false =>
          obtain ⟨h', hrun, hm', htold⟩ := hobs.dispose hm hdisposed
          exact ⟨_, _, announces_of_emptied (by rw [HostM.operate, hrun]) hm' rfl htold nofun⟩

theorem mirrored_afterOperations (hm : h.Mirrored name id copy c)
    (operations : List Collection.Operation) :
    ∃ c', (h.afterOperations client id operations).Mirrored name id copy c' := by
  induction operations generalizing h c with
  | nil => exact ⟨c, hm⟩
  | cons operation operations ih =>
      obtain ⟨c', uris, hannounces⟩ := hobs.announces_operate hm operation
      exact ih hannounces.mirrored

/-- **The copy of an observer is right after every operation.**  The observer starts with a copy of
the collection, and at each notification it brings its copy of the entry up to date.  After any
operations, accepted or not, the copy is the collection.  Each further operation tells the observer
exactly once about every document that it wrote or removed, and about no other; a stale write, a
deletion of what is not there, a call that a disposed collection refuses, and a second disposal
leave everything as it is.

Others may observe the collection too.  When they are told they may do anything to the rest of the
host, other collections included, but they must not fail, and they must leave this collection, the
copy and the notes alone: an observer that fails keeps those behind it from being told, and a change
made to the collection during a notification is told about in turn. -/
theorem copy_follows_the_collection (start : Host σ) (c₀ : Collection)
    (hstart : start.collection? id = some c₀) (hcopy : copy start.client = c₀.entries)
    (hcount : c₀.emitter.listeners.count name = 1) (operations : List Collection.Operation)
    (h : Host σ) (hafter : start.afterOperations client id operations = h) :
    ∃ c, h.collection? id = some c ∧ copy h.client = c.entries ∧
      (∀ operation, ∃ c' uris, (HostM.operate client id operation h).2.collection? id = some c' ∧
        told (HostM.operate client id operation h).2.client = told h.client ++ uris ∧
        uris.Nodup ∧
        ∀ uri, uri ∈ uris ↔
          (∃ e, operation = .set uri e ∧ (writeEntry client id uri e h).1 = .ok true) ∨
            uri ∈ c.entries.keys ∧ uri ∉ c'.entries.keys) ∧
      (∀ uri e, c.disposed = false → c.isStale uri e = true →
        writeEntry client id uri e h = (.ok false, h)) ∧
      (∀ uri, c.disposed = false → uri ∉ c.entries.keys →
        deleteEntry client id uri h = (.ok (), h)) ∧
      (c.disposed = true →
        (∀ uri e, ∃ f, writeEntry client id uri e h = (.error f, h)) ∧
        (∀ uri, ∃ f, deleteEntry client id uri h = (.error f, h)) ∧
        disposeCollection client id h = (.ok (), h)) := by
  obtain ⟨c, hm⟩ := hobs.mirrored_afterOperations ⟨hstart, hcopy, .inl hcount⟩ operations
  rw [hafter] at hm
  have hc := hm.collection_eq
  refine ⟨c, hc, hm.copy_eq, fun operation => ?_,
    fun uri e halive hstale => writeEntry_of_stale client hc halive hstale,
    fun uri halive habsent => deleteEntry_of_absent client hc halive habsent, fun hdisposed =>
      ⟨fun uri e => ⟨_, writeEntry_of_disposed client hc hdisposed uri e⟩,
        fun uri => ⟨_, deleteEntry_of_disposed client hc hdisposed uri⟩,
        disposeCollection_of_disposed client hc hdisposed⟩⟩
  obtain ⟨c', uris, hannounces⟩ := hobs.announces_operate hm operation
  exact ⟨c', uris, hannounces.mirrored.collection_eq, hannounces.told_eq, hannounces.nodup,
    hannounces.mem_iff⟩

end Observes

/-- The client whose state is a copy of a collection and the documents it was told about. -/
def Client.mirror (name : String) (id : CollectionId) : Client (Table Entry × List String) where
  notify other
    | .diagnostics uri =>
        if other = name then
          modify fun h =>
            { h with client :=
              (h.client.1.refresh uri ((h.collection? id).bind fun c => c.entries.find? uri),
                h.client.2 ++ [uri]) }
        else pure ()
    | _ => pure ()
  invoke _ := pure .null

namespace Observes

theorem mirror (name : String) (id : CollectionId) :
    Observes (.mirror name id) name id Prod.fst Prod.snd where
  own uri h := by
    have hrun : (Client.mirror name id).notify name (.diagnostics uri) h =
        (.ok (), { h with client :=
          (h.client.1.refresh uri ((h.collection? id).bind fun c => c.entries.find? uri),
            h.client.2 ++ [uri]) }) := by
      simp only [Client.mirror, if_pos]
      rfl
    exact ⟨_, hrun, rfl, rfl, rfl⟩
  others other uri h hother := by
    refine ⟨h, ?_, rfl, rfl, rfl⟩
    simp only [Client.mirror, if_neg hother]
    rfl

theorem copy_follows_the_collection_stale :
    Observes (.mirror "view" ⟨0⟩) "view" ⟨0⟩ Prod.fst Prod.snd ∧
      ∃ h c, Host.afterOperations (.mirror "view" ⟨0⟩) ⟨0⟩
          [.set "a" ⟨some 2, []⟩, .set "a" ⟨some 1, []⟩, .set "b" ⟨none, []⟩, .delete "c",
            .delete "a"]
          { workspace := {}
            collections := ⟨[{ name := "edl", emitter := ⟨["log", "view"]⟩ }]⟩
            client := (.empty, []) } = h ∧
        h.collection? ⟨0⟩ = some c ∧ h.client.1 = c.entries ∧ c.entries.keys = ["b"] ∧
        h.client.2 = ["a", "b", "a"] := by
  obtain ⟨c, hc, hcopy, -⟩ := (mirror "view" ⟨0⟩).copy_follows_the_collection
    { workspace := {}
      collections := ⟨[{ name := "edl", emitter := ⟨["log", "view"]⟩ }]⟩
      client := (.empty, []) } _ rfl rfl (by decide)
    [.set "a" ⟨some 2, []⟩, .set "a" ⟨some 1, []⟩, .set "b" ⟨none, []⟩, .delete "c", .delete "a"]
    _ rfl
  refine ⟨mirror "view" ⟨0⟩, _, c, rfl, hc, hcopy, ?_, rfl⟩
  rw [← hcopy]
  rfl

end Observes

end Edl
