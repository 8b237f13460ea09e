/-
The workspace as a function of the history of requests.

A history says which documents are open: those that were opened and not closed since.  The request
that opened one gave it its language and its first text; the requests to change it that came later,
all of which were accepted, gave it its other texts and its version.  Requests that were refused say
nothing about it.  The workspace after a history agrees with it in all this, and keeps the open
documents in the order in which they were opened; and since services do not touch the workspace, it
does not matter which services were there, and whether they failed.

Main definitions:

* `Edl.Workspace.Refuses`, `Edl.Workspace.carryOut` — which requests are refused, and what the
  others do;
* `Edl.History.IsOpen`, `Edl.History.Since` — an open document, and what came after it was opened;
* `Edl.History.Accounts`, `Edl.History.OpenedBefore` — what a history says about a document, and
  about the order of two;
* `Edl.Workspace.Records` — a workspace that agrees with a history;
* `Edl.Call`, `Edl.Host.afterCalls` — requests among activations and disposals of services.

Main results:

* `Edl.History.isOpen_concat`, `Edl.History.since_concat` — a history with one more request;
* `Edl.Workspace.Records.next`, `Edl.Workspace.Records.nextAll` — requests keep a workspace in
  agreement with its history;
* `Edl.HostM.workspace_follows_the_requests` — **the workspace is a function of the requests
  alone**.
-/

import Edl.Proofs.Undisturbed

set_option relaxedAutoImplicit false
set_option autoImplicit false

namespace Edl

/-! ### What the workspace refuses, and what it does -/

namespace Workspace

/-- The request is refused: a document that is open cannot be opened, one that is not open cannot
be changed, closed or made the active one, and the configuration must stay readable. -/
def Refuses (w : Workspace) : Request → Prop
  | .openDocument uri _ _ => uri ∈ w.documents.keys
  | .changeDocument uri _ => uri ∉ w.documents.keys
  | .closeDocument uri => uri ∉ w.documents.keys
  | .setActive (some uri) => uri ∉ w.documents.keys
  | .setActive none => False
  | .updateConfiguration entries =>
      ¬Readable { w with configuration := w.configuration.override (Config.flatten entries) }
  | .execute _ => False

/-- The full effect of a request on the workspace. -/
def carryOut (w : Workspace) : Request → Workspace
  | .openDocument uri text language =>
      { w with documents := w.documents.insert uri { uri, text, language }, active := some uri }
  | .changeDocument uri text =>
      match w.documents.find? uri with
      | some d => { w with documents := w.documents.insert uri (d.withText text) }
      | none => w
  | .closeDocument uri =>
      { w with
        documents := w.documents.erase uri
        active := if w.active = some uri then none else w.active }
  | .setActive uri => { w with active := uri }
  | .updateConfiguration entries =>
      { w with configuration := w.configuration.override (Config.flatten entries) }
  | .execute _ => w

variable {w : Workspace} {r : Request}

theorem document_of_mem {uri : String} (h : uri ∈ w.documents.keys) :
    ∃ d, w.documents.find? uri = some d ∧ w.document uri = .ok d := by
  obtain ⟨d, hfind⟩ := Table.mem_keys_iff.1 h
  exact ⟨d, hfind, document_eq_ok.2 hfind⟩

theorem document_of_not_mem {uri : String} (h : uri ∉ w.documents.keys) :
    w.document uri = .error (.documentNotOpen uri) := by
  rw [document, Table.find?_eq_none_iff.2 h]

theorem step_of_refuses (h : w.Refuses r) : ∃ f, w.step r = .error f := by
  cases r with
  | openDocument uri text language =>
      refine ⟨.documentOpen uri, ?_⟩
      simp only [step, openDocument, Table.contains_iff.2 h, if_true]
      rfl
  | changeDocument uri text =>
      refine ⟨.documentNotOpen uri, ?_⟩
      simp only [step, changeDocument, document_of_not_mem h]
      rfl
  | closeDocument uri =>
      refine ⟨.documentNotOpen uri, ?_⟩
      simp only [step, closeDocument, document_of_not_mem h]
      rfl
  | setActive uri =>
      cases uri with
      | none => exact h.elim
      | some uri =>
          refine ⟨.documentNotOpen uri, ?_⟩
          simp only [step, setActive, document_of_not_mem h]
          rfl
  | updateConfiguration entries =>
      cases hsettings : Config.settings (w.configuration.override (Config.flatten entries)) with
      | error f =>
          refine ⟨f, ?_⟩
          simp only [step, updateConfiguration, hsettings]
          rfl
      | ok settings => exact absurd ⟨settings, hsettings⟩ h
  | execute name => exact h.elim

/-- A request that is not refused has its full effect. -/
theorem step_of_not_refuses (h : ¬w.Refuses r) : w.step r = .ok (w.carryOut r) := by
  cases r with
  | openDocument uri text language =>
      have hnew : w.documents.contains uri = false := Table.contains_eq_false_iff.2 h
      simp only [step, openDocument, hnew]
      rfl
  | changeDocument uri text =>
      obtain ⟨d, hfind, hdocument⟩ := document_of_mem (Classical.not_not.1 h)
      simp only [step, changeDocument, hdocument, carryOut, hfind]
      rfl
  | closeDocument uri =>
      obtain ⟨d, -, hdocument⟩ := document_of_mem (Classical.not_not.1 h)
      simp only [step, closeDocument, hdocument]
      rfl
  | setActive uri =>
      cases uri with
      | none => rfl
      | some uri =>
          obtain ⟨d, -, hdocument⟩ := document_of_mem (Classical.not_not.1 h)
          simp only [step, setActive, hdocument]
          rfl
  | updateConfiguration entries =>
      obtain ⟨settings, hsettings⟩ := Classical.not_not.1 h
      have hread : Config.settings (w.configuration.override (Config.flatten entries)) =
        .ok settings := hsettings
      simp only [step, updateConfiguration, hread]
      rfl
  | execute name => rfl

theorem next_of_refuses (h : w.Refuses r) : w.next r = w := by
  obtain ⟨f, hstep⟩ := step_of_refuses h
  rw [next, hstep]

theorem next_of_not_refuses (h : ¬w.Refuses r) : w.next r = w.carryOut r := by
  rw [next, step_of_not_refuses h]

end Workspace

/-! ### What a history says -/

namespace History

/-- The document was opened, and not closed since. -/
def IsOpen (rs : List Request) (uri : String) : Prop :=
  ∃ before text language after, rs = before ++ .openDocument uri text language :: after ∧
    .closeDocument uri ∉ after

/-- The document was opened while it was not open, with this text and language, and not closed in
what came after it. -/
def Since (rs : List Request) (uri text language : String) (after : List Request) : Prop :=
  ∃ before, rs = before ++ .openDocument uri text language :: after ∧
    ¬IsOpen before uri ∧ .closeDocument uri ∉ after

/-- The text that a request gives to a document that is open. -/
def edit? (uri : String) : Request → Option String
  | .changeDocument u text => if u = uri then some text else none
  | _ => none

/-- The texts that requests give to a document, in order. -/
def edits (uri : String) (rs : List Request) : List String :=
  rs.filterMap (edit? uri)

/-- What a history says about an open document: its language is the one given when it was opened,
its text the last one given, and its version the number of changes since. -/
def Accounts (rs : List Request) (uri : String) (d : Document) : Prop :=
  ∃ text language after, Since rs uri text language after ∧
    d = { uri, text := (edits uri after).getLastD text, language,
          version := (edits uri after).length }

/-- Both documents are open, and the first was opened earlier. -/
def OpenedBefore (rs : List Request) (u v : String) : Prop :=
  ∃ text language after text' language' after', Since rs u text language after ∧
    Since rs v text' language' after' ∧ after'.length < after.length

variable {rs : List Request} {r : Request} {uri text language : String} {after : List Request}
  {d : Document}

/-! ### One more request -/

/-- A place in a history with one more request is the last one, or a place in the history. -/
theorem concat_eq_append_cons_iff {x : Request} {before : List Request} :
    rs ++ [r] = before ++ x :: after ↔
      (after = [] ∧ rs = before ∧ r = x) ∨ ∃ a, after = a ++ [r] ∧ rs = before ++ x :: a := by
  rcases List.eq_nil_or_concat after with rfl | ⟨a, y, rfl⟩
  · simp [List.append_singleton_inj]
  · rw [List.concat_eq_append, ← List.cons_append, ← List.append_assoc, List.append_singleton_inj]
    constructor
    · rintro ⟨hrs, rfl⟩
      exact .inr ⟨a, rfl, hrs⟩
    · rintro (⟨hnil, -⟩ | ⟨a', ha, hrs⟩)
      · simp at hnil
      · obtain ⟨rfl, rfl⟩ := List.append_singleton_inj.1 ha
        exact ⟨hrs, rfl⟩

theorem not_mem_concat_iff {x : Request} {a : List Request} : x ∉ a ++ [r] ↔ x ∉ a ∧ r ≠ x := by
  rw [List.mem_append, List.mem_singleton, not_or]
  exact and_congr_right fun _ => ⟨Ne.symm, Ne.symm⟩

theorem isOpen_concat :
    IsOpen (rs ++ [r]) uri ↔
      (∃ text language, r = .openDocument uri text language) ∨
        IsOpen rs uri ∧ r ≠ .closeDocument uri := by
  constructor
  · rintro ⟨before, text, language, after, heq, hclose⟩
    rcases concat_eq_append_cons_iff.1 heq with ⟨-, -, hr⟩ | ⟨a, rfl, hrs⟩
    · exact .inl ⟨text, language, hr⟩
    · obtain ⟨hclose, hr⟩ := not_mem_concat_iff.1 hclose
      exact .inr ⟨⟨before, text, language, a, hrs, hclose⟩, hr⟩
  · rintro (⟨text, language, rfl⟩ | ⟨⟨before, text, language, a, rfl, hclose⟩, hr⟩)
    · exact ⟨rs, text, language, [], rfl, List.not_mem_nil⟩
    · refine ⟨before, text, language, a ++ [r], ?_, not_mem_concat_iff.2 ⟨hclose, hr⟩⟩
      rw [List.append_assoc, List.cons_append]

theorem since_concat :
    Since (rs ++ [r]) uri text language after ↔
      (r = .openDocument uri text language ∧ after = [] ∧ ¬IsOpen rs uri) ∨
        ∃ a, after = a ++ [r] ∧ Since rs uri text language a ∧ r ≠ .closeDocument uri := by
  constructor
  · rintro ⟨before, heq, hnew, hclose⟩
    rcases concat_eq_append_cons_iff.1 heq with ⟨hafter, rfl, hr⟩ | ⟨a, rfl, hrs⟩
    · exact .inl ⟨hr, hafter, hnew⟩
    · obtain ⟨hclose, hr⟩ := not_mem_concat_iff.1 hclose
      exact .inr ⟨a, rfl, ⟨before, hrs, hnew, hclose⟩, hr⟩
  · rintro (⟨rfl, rfl, hnew⟩ | ⟨a, rfl, ⟨before, rfl, hnew, hclose⟩, hr⟩)
    · exact ⟨rs, rfl, hnew, List.not_mem_nil⟩
    · refine ⟨before, ?_, hnew, not_mem_concat_iff.2 ⟨hclose, hr⟩⟩
      rw [List.append_assoc, List.cons_append]

theorem Since.isOpen (h : Since rs uri text language after) : IsOpen rs uri := by
  obtain ⟨before, hrs, -, hclose⟩ := h
  exact ⟨before, text, language, after, hrs, hclose⟩

theorem Since.concat (h : Since rs uri text language after) (hr : r ≠ .closeDocument uri) :
    Since (rs ++ [r]) uri text language (after ++ [r]) :=
  since_concat.2 (.inr ⟨after, rfl, h, hr⟩)

theorem Accounts.isOpen (h : Accounts rs uri d) : IsOpen rs uri := by
  obtain ⟨text, language, after, hsince, -⟩ := h
  exact hsince.isOpen

/-- A document that is open was opened at some place while it was not: take the first place at which
it was opened and not closed since. -/
theorem IsOpen.exists_since (h : IsOpen rs uri) :
    ∃ text language after, Since rs uri text language after := by
  obtain ⟨before, text, language, after, heq, hclose⟩ := h
  induction hn : before.length using Nat.strongRecOn generalizing before text language after with
  | _ n ih =>
      by_cases hbefore : IsOpen before uri
      · obtain ⟨b, t, l, a, rfl, hclose'⟩ := hbefore
        refine ih b.length ?_ b t l (a ++ .openDocument uri text language :: after) ?_ ?_ rfl
        · rw [← hn, List.length_append, List.length_cons]
          omega
        · rw [heq, List.append_assoc, List.cons_append]
        · rw [List.mem_append, List.mem_cons, not_or, not_or]
          exact ⟨hclose', nofun, hclose⟩
      · exact ⟨text, language, after, before, heq, hbefore, hclose⟩

theorem isOpen_iff_exists_accounts : IsOpen rs uri ↔ ∃ d, Accounts rs uri d := by
  constructor
  · intro h
    obtain ⟨text, language, after, hsince⟩ := h.exists_since
    exact ⟨_, text, language, after, hsince, rfl⟩
  · rintro ⟨d, hd⟩
    exact hd.isOpen

/-! ### Documents and their order after one more request -/

theorem edits_concat_of_none (h : edit? uri r = none) (rs : List Request) :
    edits uri (rs ++ [r]) = edits uri rs := by
  simp [edits, h]

/-- A request that does not open, change or close a document says nothing about it; nor does one
that opens it when it is open, or changes or closes it when it is not. -/
theorem accounts_concat_iff (hopen : ∀ text language, r = .openDocument uri text language →
      IsOpen rs uri) (hedit : IsOpen rs uri → edit? uri r = none)
    (hclose : IsOpen rs uri → r ≠ .closeDocument uri) :
    Accounts (rs ++ [r]) uri d ↔ Accounts rs uri d := by
  constructor
  · rintro ⟨text, language, after, hsince, rfl⟩
    rcases since_concat.1 hsince with ⟨hr, -, hnew⟩ | ⟨a, rfl, hsince', -⟩
    · exact absurd (hopen text language hr) hnew
    · rw [edits_concat_of_none (hedit hsince'.isOpen)]
      exact ⟨text, language, a, hsince', rfl⟩
  · rintro ⟨text, language, a, hsince, rfl⟩
    refine ⟨text, language, a ++ [r], hsince.concat (hclose hsince.isOpen), ?_⟩
    rw [edits_concat_of_none (hedit hsince.isOpen)]

theorem accounts_opened (hnew : ¬IsOpen rs uri) :
    Accounts (rs ++ [.openDocument uri text language]) uri d ↔ d = { uri, text, language } := by
  constructor
  · rintro ⟨text', language', after, hsince, rfl⟩
    rcases since_concat.1 hsince with ⟨hr, rfl, -⟩ | ⟨a, rfl, hsince', -⟩
    · cases hr
      rfl
    · exact absurd hsince'.isOpen hnew
  · rintro rfl
    exact ⟨text, language, [], since_concat.2 (.inl ⟨rfl, rfl, hnew⟩), rfl⟩

theorem accounts_changed :
    Accounts (rs ++ [.changeDocument uri text]) uri d ↔
      ∃ d', Accounts rs uri d' ∧ d = d'.withText text := by
  have hedits : ∀ a, edits uri (a ++ [.changeDocument uri text]) = edits uri a ++ [text] := by
    intro a
    simp [edits, edit?]
  constructor
  · rintro ⟨text', language, after, hsince, rfl⟩
    rcases since_concat.1 hsince with ⟨hr, -, -⟩ | ⟨a, rfl, hsince', -⟩
    · cases hr
    · refine ⟨_, ⟨text', language, a, hsince', rfl⟩, ?_⟩
      simp [hedits, Document.withText]
  · rintro ⟨_, ⟨text', language, a, hsince, rfl⟩, rfl⟩
    refine ⟨text', language, a ++ [.changeDocument uri text], hsince.concat (by simp), ?_⟩
    simp [hedits, Document.withText]

theorem not_isOpen_closed : ¬IsOpen (rs ++ [.closeDocument uri]) uri := by
  rw [isOpen_concat]
  rintro (⟨text, language, hr⟩ | ⟨-, hr⟩)
  · cases hr
  · exact hr rfl

/-- A request that closes neither document leaves their order as it is. -/
theorem OpenedBefore.concat {u v : String} (h : OpenedBefore rs u v)
    (hu : r ≠ .closeDocument u) (hv : r ≠ .closeDocument v) : OpenedBefore (rs ++ [r]) u v := by
  obtain ⟨text, language, a, text', language', a', hsince, hsince', hlt⟩ := h
  refine ⟨text, language, a ++ [r], text', language', a' ++ [r], hsince.concat hu,
    hsince'.concat hv, ?_⟩
  simpa using hlt

/-- A document that was opened last comes after all others. -/
theorem openedBefore_opened {u : String} (hopen : Accounts rs u d) (hnew : ¬IsOpen rs uri) :
    OpenedBefore (rs ++ [.openDocument uri text language]) u uri := by
  obtain ⟨text', language', a, hsince, -⟩ := hopen
  refine ⟨text', language', a ++ [.openDocument uri text language], text, language, [],
    hsince.concat (by simp), since_concat.2 (.inl ⟨rfl, rfl, hnew⟩), ?_⟩
  simp

end History

/-! ### Workspaces that agree with a history -/

namespace Workspace

open History

/-- The open documents are those that the history tells of, in the order in which they were opened,
and the active one is among them. -/
structure Records (rs : List Request) (w : Workspace) : Prop where
  find?_iff : ∀ uri d, w.documents.find? uri = some d ↔ Accounts rs uri d
  order : w.documents.keys.Pairwise (OpenedBefore rs)
  active : ∀ uri, w.active = some uri → uri ∈ w.documents.keys

namespace Records

variable {w w' : Workspace} {rs : List Request} {r : Request} {uri text language : String}

theorem mem_keys_iff (hw : w.Records rs) : uri ∈ w.documents.keys ↔ IsOpen rs uri := by
  rw [Table.mem_keys_iff, isOpen_iff_exists_accounts]
  exact exists_congr fun d => hw.find?_iff uri d

/-- A request that says nothing about the open documents, and leaves them alone. -/
theorem kept (hw : w.Records rs) (hdocuments : w'.documents = w.documents)
    (hactive : ∀ uri, w'.active = some uri → uri ∈ w.documents.keys)
    (hopen : ∀ uri text language, r = .openDocument uri text language → uri ∈ w.documents.keys)
    (hedit : ∀ uri ∈ w.documents.keys, edit? uri r = none)
    (hclose : ∀ uri ∈ w.documents.keys, r ≠ .closeDocument uri) : w'.Records (rs ++ [r]) where
  find?_iff uri d := by
    rw [hdocuments, hw.find?_iff, accounts_concat_iff]
    · exact fun text language hr => hw.mem_keys_iff.1 (hopen uri text language hr)
    · exact fun h => hedit uri (hw.mem_keys_iff.2 h)
    · exact fun h => hclose uri (hw.mem_keys_iff.2 h)
  order := by
    rw [hdocuments]
    refine hw.order.imp_of_mem fun hu hv hbefore => ?_
    exact hbefore.concat (hclose _ hu) (hclose _ hv)
  active := by
    rw [hdocuments]
    exact hactive

theorem opened (hw : w.Records rs) (hnew : uri ∉ w.documents.keys) :
    (w.carryOut (.openDocument uri text language)).Records
      (rs ++ [.openDocument uri text language]) := by
  have hclosed : ¬IsOpen rs uri := fun h => hnew (hw.mem_keys_iff.2 h)
  refine ⟨fun k d => ?_, ?_, ?_⟩
  · simp only [carryOut]
    rw [Table.find?_insert]
    by_cases hk : k = uri
    · subst hk
      rw [if_pos rfl, accounts_opened hclosed, Option.some.injEq]
      exact eq_comm
    · rw [if_neg hk, hw.find?_iff, accounts_concat_iff]
      · intro text' language' hr
        cases hr
        exact absurd rfl hk
      · exact fun _ => rfl
      · exact fun _ => nofun
  · simp only [carryOut]
    rw [Table.keys_insert_of_not_mem hnew, List.pairwise_append]
    refine ⟨hw.order.imp fun hbefore => hbefore.concat nofun nofun, List.pairwise_singleton _ _,
      fun u hu v hv => ?_⟩
    obtain rfl := List.mem_singleton.1 hv
    obtain ⟨d, hfind⟩ := Table.mem_keys_iff.1 hu
    exact openedBefore_opened ((hw.find?_iff u d).1 hfind) hclosed
  · intro k hk
    obtain rfl := Option.some.inj hk
    simp only [carryOut]
    rw [Table.keys_insert_of_not_mem hnew]
    simp

theorem changed (hw : w.Records rs) (hopen : uri ∈ w.documents.keys) :
    (w.carryOut (.changeDocument uri text)).Records (rs ++ [.changeDocument uri text]) := by
  obtain ⟨d, hfind⟩ := Table.mem_keys_iff.1 hopen
  simp only [carryOut, hfind]
  refine ⟨fun k d' => ?_, ?_, fun k hk => ?_⟩
  · rw [Table.find?_insert]
    by_cases hk : k = uri
    · subst hk
      rw [if_pos rfl, accounts_changed, Option.some.injEq]
      constructor
      · rintro rfl
        exact ⟨d, (hw.find?_iff k d).1 hfind, rfl⟩
      · rintro ⟨d'', hd'', rfl⟩
        rw [← hw.find?_iff, hfind] at hd''
        rw [Option.some.inj hd'']
    · have hedit : edit? k (.changeDocument uri text) = none := by simp [edit?, Ne.symm hk]
      rw [if_neg hk, hw.find?_iff, accounts_concat_iff (fun _ _ h => by cases h)
        (fun _ => hedit) fun _ => nofun]
  · rw [Table.keys_insert_of_mem hopen]
    exact hw.order.imp fun hbefore => hbefore.concat nofun nofun
  · rw [Table.keys_insert_of_mem hopen]
    exact hw.active k hk

theorem closed (hw : w.Records rs) :
    (w.carryOut (.closeDocument uri)).Records (rs ++ [.closeDocument uri]) := by
  refine ⟨fun k d => ?_, ?_, fun k hk => ?_⟩
  · simp only [carryOut]
    rw [Table.find?_erase]
    by_cases hk : k = uri
    · subst hk
      rw [if_pos rfl]
      exact iff_of_false nofun fun hd => not_isOpen_closed hd.isOpen
    · have hclose : Request.closeDocument uri ≠ .closeDocument k := by
        intro h
        exact hk (Request.closeDocument.inj h).symm
      rw [if_neg hk, hw.find?_iff, accounts_concat_iff (fun _ _ h => by cases h)
        (fun _ => rfl) fun _ => hclose]
  · simp only [carryOut]
    rw [Table.keys_erase]
    refine (hw.order.sublist List.filter_sublist).imp_of_mem fun hu hv hbefore => ?_
    refine hbefore.concat ?_ ?_
    · rintro ⟨⟩
      simp at hu
    · rintro ⟨⟩
      simp at hv
  · simp only [carryOut] at hk ⊢
    rw [Table.keys_erase]
    split at hk
    · cases hk
    · next hactive =>
        have hne : k ≠ uri := by
          rintro rfl
          exact hactive hk
        exact List.mem_filter.2 ⟨hw.active k hk, by simpa using hne⟩

/-- A request keeps a workspace in agreement with its history, whether or not it is refused. -/
theorem next (hw : w.Records rs) (r : Request) : (w.next r).Records (rs ++ [r]) := by
  by_cases hrefuses : w.Refuses r
  · rw [next_of_refuses hrefuses]
    refine hw.kept rfl hw.active ?_ ?_ ?_
    · rintro uri text language rfl
      exact hrefuses
    · intro uri huri
      cases r with
      | changeDocument u text =>
          have hne : u ≠ uri := by
            rintro rfl
            exact hrefuses huri
          simp [edit?, hne]
      | _ => rfl
    · rintro uri huri rfl
      exact hrefuses huri
  · rw [next_of_not_refuses hrefuses]
    cases r with
    | openDocument uri text language => exact hw.opened hrefuses
    | changeDocument uri text => exact hw.changed (Classical.not_not.1 hrefuses)
    | closeDocument uri => exact hw.closed
    | setActive uri =>
        refine hw.kept rfl (fun k hk => ?_) nofun (fun _ _ => rfl) fun _ _ => nofun
        have huri : uri = some k := hk
        subst huri
        exact Classical.not_not.1 hrefuses
    | updateConfiguration entries =>
        exact hw.kept rfl hw.active nofun (fun _ _ => rfl) fun _ _ => nofun
    | execute name => exact hw.kept rfl hw.active nofun (fun _ _ => rfl) fun _ _ => nofun

theorem nextAll (hw : w.Records rs) (more : List Request) :
    (w.nextAll more).Records (rs ++ more) := by
  induction more generalizing w rs with
  | nil =>
      rw [List.append_nil]
      exact hw
  | cons r more ih =>
      have hmore := ih (hw.next r)
      rwa [List.append_assoc] at hmore

end Records

/-- At the start there is nothing to tell of. -/
theorem records_of_create {entries : List (String × Config.Value)} {w : Workspace}
    (h : create entries = .ok w) : w.Records [] := by
  obtain rfl : w = { configuration := Config.flatten entries } := by
    unfold create at h
    cases hsettings : Config.settings (Config.flatten entries) with
    | error f => simp [hsettings, bind, Except.bind] at h
    | ok settings =>
        simp only [hsettings, bind, Except.bind, pure, Except.pure, Except.ok.injEq] at h
        exact h.symm
  refine ⟨fun uri d => iff_of_false nofun ?_, .nil, nofun⟩
  rintro ⟨text, language, after, ⟨before, heq, -⟩, -⟩
  simp at heq

end Workspace

/-! ### Requests among services -/

/-- A request, or a step in the life of a service. -/
inductive Call where
  | request (r : Request)
  | activate (rules : List Lint.Rule)
  | deactivate (s : ServiceId)

/-- The request that a call makes. -/
def Call.request? : Call → Option Request
  | request r => some r
  | activate _ => none
  | deactivate _ => none

/-- Carries out a call. -/
def HostM.call {σ : Type} (client : Client σ) : Call → HostM σ Unit
  | .request r => perform client r
  | .activate rules => discard (activate client rules)
  | .deactivate s => deactivate client s

/-- The host after calls, whether or not they succeed. -/
def Host.afterCalls {σ : Type} (client : Client σ) (calls : List Call) (h : Host σ) : Host σ :=
  calls.foldl (fun h call => (HostM.call client call h).2) h

namespace HostM

variable {σ : Type} {client : Client σ}

/-- Of the calls, only the requests concern the workspace. -/
theorem workspace_call (hclient : client.LeavesWorkspace) (call : Call) (h : Host σ) :
    (HostM.call client call h).2.workspace =
      h.workspace.nextAll (call.request?.toList) := by
  cases call with
  | request r => exact workspace_perform hclient r h
  | activate rules =>
      simp only [HostM.call]
      rw [discard_apply]
      exact workspace_activate hclient rules h
  | deactivate s => exact workspace_deactivate hclient s h

theorem workspace_afterCalls (hclient : client.LeavesWorkspace) (calls : List Call) (h : Host σ) :
    (h.afterCalls client calls).workspace =
      h.workspace.nextAll (calls.filterMap Call.request?) := by
  induction calls generalizing h with
  | nil => rfl
  | cons call calls ih =>
      have hrest := ih (HostM.call client call h).2
      rw [workspace_call hclient] at hrest
      refine hrest.trans ?_
      cases call <;> rfl

/-- **The workspace is a function of the requests alone.**  Requests are made to a host among
activations and disposals of services with any rules; the clients leave the workspace alone.  A
request that the workspace refuses ends in a fault and changes nothing; any other has its full
effect on the workspace, even if it ends in the fault of somebody who was told.  Activations and
disposals have none.  After any calls the open documents are those that were opened and not closed
since, in the order in which they were opened, with the language given then, the last text given and
the number of changes since as version; the active document is none or one of them; and all this is
as it is after the same requests to a host to which nothing is ever attached. -/
theorem workspace_follows_the_requests (client : Client σ) (hclient : client.LeavesWorkspace)
    {entries : List (String × Config.Value)} {w : Workspace}
    (hcreate : Workspace.create entries = .ok w) (start : Host σ) (hstart : start.workspace = w)
    (calls : List Call) (h : Host σ) (hafter : start.afterCalls client calls = h)
    (rs : List Request) (hrs : calls.filterMap Call.request? = rs) :
    (∀ r, h.workspace.Refuses r → ∃ f, perform client r h = (.error f, h)) ∧
    (∀ r, ¬h.workspace.Refuses r →
      (perform client r h).2.workspace = h.workspace.carryOut r) ∧
    (∀ rules, (activate client rules h).2.workspace = h.workspace) ∧
    (∀ s, (deactivate client s h).2.workspace = h.workspace) ∧
    (∀ uri, uri ∈ h.workspace.documents.keys ↔ History.IsOpen rs uri) ∧
    (∀ uri d, h.workspace.documents.find? uri = some d ↔ History.Accounts rs uri d) ∧
    h.workspace.documents.keys.Pairwise (History.OpenedBefore rs) ∧
    (∀ uri, h.workspace.active = some uri → uri ∈ h.workspace.documents.keys) ∧
    h.workspace =
      (Host.after client rs { workspace := w, client := start.client }).workspace := by
  have hworkspace : h.workspace = w.nextAll rs := by
    rw [← hafter, workspace_afterCalls hclient, hstart, hrs]
  have hrecords : h.workspace.Records rs := by
    rw [hworkspace]
    exact (Workspace.records_of_create hcreate).nextAll rs
  refine ⟨fun r hrefuses => ?_, fun r hrefuses => ?_,
    fun rules => workspace_activate hclient rules h, fun s => workspace_deactivate hclient s h,
    fun _ => hrecords.mem_keys_iff, hrecords.find?_iff, hrecords.order, hrecords.active, ?_⟩
  · obtain ⟨f, hstep⟩ := Workspace.step_of_refuses hrefuses
    exact ⟨f, perform_of_refused client hstep⟩
  · exact workspace_perform_of_accepted hclient (Workspace.step_of_not_refuses hrefuses)
  · rw [after_of_bare client (bare_mk w start.client) rs]
    exact hworkspace

/-- A service whose rules fail does not keep the workspace from changing. -/
theorem workspace_follows_the_requests_raised :
    (Client.idle : Client Unit).LeavesWorkspace ∧
      Workspace.create [] = .ok { configuration := .empty } ∧
      (perform .idle (.openDocument "a" "x")
        (Host.afterCalls .idle [.activate [Lint.lineTooLongRule (-1)]]
          { workspace := { configuration := .empty }, client := () })).1 ≠ .ok () ∧
      ∃ h, Host.afterCalls .idle
          [.activate [Lint.lineTooLongRule (-1)], .request (.openDocument "a" "x"),
            .request (.openDocument "b" "" "text"), .request (.changeDocument "a" "y"),
            .request (.openDocument "a" "z"), .deactivate ⟨0⟩, .request (.setActive "a")]
          { workspace := { configuration := .empty }, client := () } = h ∧
        h.workspace.documents.keys = ["a", "b"] ∧
        History.Accounts [.openDocument "a" "x", .openDocument "b" "" "text",
          .changeDocument "a" "y", .openDocument "a" "z", .setActive "a"] "a"
          ⟨"a", "y", "edl", 1⟩ := by
  have hclient : (Client.idle : Client Unit).LeavesWorkspace := ⟨fun _ _ _ => rfl, fun _ _ => rfl⟩
  have hcreate : Workspace.create [] = .ok { configuration := .empty } := rfl
  obtain ⟨-, -, -, -, -, haccounts, -⟩ := workspace_follows_the_requests .idle hclient hcreate
    { workspace := { configuration := .empty }, client := () } rfl
    [.activate [Lint.lineTooLongRule (-1)], .request (.openDocument "a" "x"),
      .request (.openDocument "b" "" "text"), .request (.changeDocument "a" "y"),
      .request (.openDocument "a" "z"), .deactivate ⟨0⟩, .request (.setActive "a")] _ rfl _ rfl
  refine ⟨hclient, hcreate, nofun, _, rfl, rfl, (haccounts "a" _).1 rfl⟩

end HostM

end Edl
