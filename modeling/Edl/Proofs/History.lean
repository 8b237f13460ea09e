/-
What requests do to the workspace.

A request that is accepted changes the workspace before anybody is told, so its effect on the
workspace is a function of the workspace and the request alone.  The workspaces that arise in this
way from a first configuration have three properties that everything later relies on: each open
document stands under its own address, the configuration is flat, and it can be read.

Main definitions:

* `Edl.Workspace.step`, `Edl.Workspace.next`, `Edl.Workspace.nextAll` — the workspace after a
  request, and after many;
* `Edl.Workspace.Sound` — the three properties.

Main results:

* `Edl.Workspace.sound_of_create`, `Edl.Workspace.Sound.next` — they hold at the start and are kept.
-/

import Edl.Host.Request
import Edl.Proofs.Configuration

set_option relaxedAutoImplicit false
set_option autoImplicit false

namespace Edl.Workspace

/-! ### The effect of a request -/

/-- The workspace after a request, or the reason why the workspace refuses it. -/
def step (w : Workspace) : Request → Except Fault Workspace
  | .openDocument uri text language => (w.openDocument uri text language).map Prod.fst
  | .changeDocument uri text => (w.changeDocument uri text).map Prod.fst
  | .closeDocument uri => (w.closeDocument uri).map Prod.fst
  | .setActive uri => w.setActive uri
  | .updateConfiguration entries => (w.updateConfiguration entries).map Prod.fst
  | .execute _ => .ok w

/-- The workspace after a request, which is the one before if the request is refused. -/
def next (w : Workspace) (r : Request) : Workspace :=
  match w.step r with
  | .ok w' => w'
  | .error _ => w

/-- The workspace after requests. -/
def nextAll (w : Workspace) (rs : List Request) : Workspace :=
  rs.foldl next w

/-! ### What the operations do -/

variable {w w' : Workspace}

theorem exists_of_map_eq_ok {α β : Type} {result : Except Fault α} {f : α → β} {b : β}
    (h : result.map f = .ok b) : ∃ a, result = .ok a ∧ f a = b := by
  cases result with
  | error fault => cases h
  | ok a => exact ⟨a, rfl, Except.ok.inj h⟩

theorem document_eq_ok {uri : String} {d : Document} :
    w.document uri = .ok d ↔ w.documents.find? uri = some d := by
  unfold document
  cases w.documents.find? uri <;> simp

theorem openDocument_eq_ok {uri text language : String} {d : Document}
    (h : w.openDocument uri text language = .ok (w', d)) :
    uri ∉ w.documents.keys ∧ d = { uri, text, language } ∧
      w' = { w with documents := w.documents.insert uri d, active := some uri } := by
  unfold openDocument at h
  split at h
  · cases h
  · next hcontains =>
      simp only [Except.ok.injEq, Prod.mk.injEq] at h
      obtain ⟨rfl, rfl⟩ := h
      exact ⟨fun hmem => hcontains (Table.contains_iff.2 hmem), rfl, rfl⟩

theorem changeDocument_eq_ok {uri text : String} {before after : Document}
    (h : w.changeDocument uri text = .ok (w', before, after)) :
    w.documents.find? uri = some before ∧ after = before.withText text ∧
      w' = { w with documents := w.documents.insert uri after } := by
  unfold changeDocument at h
  cases hdocument : w.document uri with
  | error f => simp [hdocument, bind, Except.bind] at h
  | ok d =>
      simp only [hdocument, bind, Except.bind, pure, Except.pure, Except.ok.injEq,
        Prod.mk.injEq] at h
      obtain ⟨rfl, rfl, rfl⟩ := h
      exact ⟨document_eq_ok.1 hdocument, rfl, rfl⟩

theorem closeDocument_eq_ok {uri : String} {d : Document}
    (h : w.closeDocument uri = .ok (w', d)) :
    w.documents.find? uri = some d ∧
      w' = { w with
        documents := w.documents.erase uri
        active := if w.active = some uri then none else w.active } := by
  unfold closeDocument at h
  cases hdocument : w.document uri with
  | error f => simp [hdocument, bind, Except.bind] at h
  | ok d =>
      simp only [hdocument, bind, Except.bind, pure, Except.pure, Except.ok.injEq,
        Prod.mk.injEq] at h
      obtain ⟨rfl, rfl⟩ := h
      exact ⟨document_eq_ok.1 hdocument, rfl⟩

theorem setActive_eq_ok {uri : Option String} (h : w.setActive uri = .ok w') :
    w' = { w with active := uri } := by
  unfold setActive at h
  cases uri with
  | none => exact (Except.ok.inj h).symm
  | some uri =>
      cases hdocument : w.document uri with
      | error f => simp [hdocument, bind, Except.bind] at h
      | ok d =>
          simp only [hdocument, bind, Except.bind, pure, Except.pure, Except.ok.injEq] at h
          exact h.symm

theorem mem_values_of_activeDocument {d : Document} (h : w.activeDocument = some d) :
    d ∈ w.documents.values := by
  unfold activeDocument at h
  obtain ⟨uri, -, hfind⟩ := Option.bind_eq_some_iff.1 h
  exact Table.mem_values_iff.2 ⟨uri, hfind⟩

/-! ### What every workspace has -/

/-- Documents stand under their own addresses, and the configuration is flat and can be read. -/
structure Sound (w : Workspace) : Prop where
  keyed : ∀ uri d, w.documents.find? uri = some d → d.uri = uri
  flat : Config.Flat w.configuration
  readable : w.Readable

/-- The workspace that a configuration gives is sound. -/
theorem sound_of_create {entries : List (String × Config.Value)} (h : create entries = .ok w) :
    w.Sound := by
  unfold create at h
  cases hsettings : Config.settings (Config.flatten entries) with
  | error f => simp [hsettings, bind, Except.bind] at h
  | ok settings =>
      simp only [hsettings, bind, Except.bind, pure, Except.pure, Except.ok.injEq] at h
      subst h
      exact ⟨by intro uri d hfind; simp at hfind, Config.flat_flatten entries, settings, hsettings⟩

/-- The documents in order stand under their addresses in order. -/
theorem Sound.map_uri_values (hw : w.Sound) :
    w.documents.values.map Document.uri = w.documents.keys := by
  rw [Table.values, Table.keys, List.map_map]
  refine List.map_congr_left ?_
  rintro ⟨uri, d⟩ hmem
  exact hw.keyed uri d (Table.find?_eq_some_iff.2 hmem)

theorem Sound.nodup_uri_values (hw : w.Sound) :
    (w.documents.values.map Document.uri).Nodup := by
  rw [hw.map_uri_values]
  exact w.documents.distinct

/-- The addresses of the documents of the language, in order. -/
theorem Sound.map_uri_filter (hw : w.Sound) :
    (w.documents.values.filter Document.isEdl).map Document.uri =
      w.documents.keysWhere Document.isEdl := by
  rw [Table.values, Table.keysWhere, List.filter_map, List.map_map]
  refine List.map_congr_left ?_
  rintro ⟨uri, d⟩ hmem
  exact hw.keyed uri d (Table.find?_eq_some_iff.2 (List.mem_filter.1 hmem).1)

/-- An open document is found under its address. -/
theorem Sound.find?_uri (hw : w.Sound) {d : Document} (hd : d ∈ w.documents.values) :
    w.documents.find? d.uri = some d := by
  obtain ⟨uri, hfind⟩ := Table.mem_values_iff.1 hd
  rwa [hw.keyed uri d hfind]

/-- A change of the documents that writes one under its own address keeps a workspace sound. -/
theorem Sound.insert (hw : w.Sound) {uri : String} {d : Document} (huri : d.uri = uri)
    (active : Option String) :
    Sound { w with documents := w.documents.insert uri d, active } := by
  refine ⟨?_, hw.flat, hw.readable⟩
  intro k d' hfind
  rw [Table.find?_insert] at hfind
  split at hfind
  · next hk => rw [← Option.some.inj hfind, huri, hk]
  · exact hw.keyed k d' hfind

theorem Sound.erase (hw : w.Sound) (uri : String) (active : Option String) :
    Sound { w with documents := w.documents.erase uri, active } := by
  refine ⟨?_, hw.flat, hw.readable⟩
  intro k d' hfind
  rw [Table.find?_erase] at hfind
  split at hfind
  · cases hfind
  · exact hw.keyed k d' hfind

/-- An accepted request keeps a workspace sound. -/
theorem Sound.step (hw : w.Sound) {r : Request} (h : w.step r = .ok w') : w'.Sound := by
  cases r with
  | openDocument uri text language =>
      obtain ⟨⟨w₁, d⟩, hopen, rfl⟩ := exists_of_map_eq_ok h
      obtain ⟨-, rfl, rfl⟩ := openDocument_eq_ok hopen
      have huri : ({ uri, text, language } : Document).uri = uri := rfl
      exact hw.insert huri _
  | changeDocument uri text =>
      obtain ⟨⟨w₁, before, after⟩, hchange, rfl⟩ := exists_of_map_eq_ok h
      obtain ⟨hfind, rfl, rfl⟩ := changeDocument_eq_ok hchange
      have huri : (before.withText text).uri = uri := hw.keyed uri before hfind
      exact hw.insert huri _
  | closeDocument uri =>
      obtain ⟨⟨w₁, d⟩, hclose, rfl⟩ := exists_of_map_eq_ok h
      obtain ⟨-, rfl⟩ := closeDocument_eq_ok hclose
      exact hw.erase uri _
  | setActive uri =>
      obtain rfl := setActive_eq_ok h
      exact ⟨hw.keyed, hw.flat, hw.readable⟩
  | updateConfiguration entries =>
      obtain ⟨⟨w₁, keys⟩, hupdate, rfl⟩ := exists_of_map_eq_ok h
      obtain ⟨rfl, -, hread⟩ := updateConfiguration_eq_ok hupdate
      exact ⟨hw.keyed, Config.flat_override hw.flat (Config.flat_flatten entries), hread⟩
  | execute name =>
      obtain rfl := Except.ok.inj h
      exact hw

/-- Every request keeps a workspace sound. -/
theorem Sound.next (hw : w.Sound) (r : Request) : (w.next r).Sound := by
  unfold Workspace.next
  split
  · next w' h => exact hw.step h
  · exact hw

theorem Sound.nextAll (hw : w.Sound) (rs : List Request) : (w.nextAll rs).Sound := by
  induction rs generalizing w with
  | nil => exact hw
  | cons r rs ih => exact ih (hw.next r)

end Edl.Workspace
