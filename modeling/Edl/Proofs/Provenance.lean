/-
Where the entries of a service come from.

When rules may fail, a scan can stop half-way, and a request can end in a fault after the workspace
has changed.  The entries of a service that is alone on a host are sound all the same: each belongs
to a document that is open, and is the complete result of a scan that was made since the document
was opened, of the text that the document had then.  A request that fails leaves every entry as it
was or replaces it by the complete result of a scan of the document as it is now.

Three things can happen to the collection: nothing, a scan of documents that are open, or that a
document which was closed is forgotten (`Edl.LintedWorkspace.Effect.trichotomy`).  Everything here
follows from that.

Main definitions:

* `Edl.Workspace.Extends` — every open document is still open, and no older;
* `Edl.LintedWorkspace.IsScan` — an entry that a complete scan of an open document gives;
* `Edl.LintedWorkspace.Covered`, `Edl.LintedWorkspace.Traced` — what is open for each entry, and
  where it comes from.

Main results:

* `Edl.LintedWorkspace.Covered.run`, `Edl.LintedWorkspace.Traced.run` — both hold after any
  requests;
* `Edl.LintedWorkspace.Effect.find?_of_error` — what a failed request leaves behind;
* `Edl.HostM.entries_are_complete_scans` — **no entry is partial or foreign**.
-/

import Edl.Proofs.SingleService

set_option relaxedAutoImplicit false
set_option autoImplicit false

namespace Edl

/-! ### What a request does to the collection -/

/-- Every document that is open in the first workspace is open in the second, and no older. -/
def Workspace.Extends (w w' : Workspace) : Prop :=
  ∀ uri doc, w.documents.find? uri = some doc →
    ∃ doc', w'.documents.find? uri = some doc' ∧ doc'.isEdl = doc.isEdl ∧
      doc.version ≤ doc'.version

theorem Workspace.Extends.of_documents {w w' : Workspace} (h : w'.documents = w.documents) :
    w.Extends w' := by
  intro uri doc hfind
  rw [h]
  exact ⟨doc, hfind, rfl, Int.le_refl _⟩

/-- A document that is written over itself, if it was open, must not become older. -/
theorem Workspace.Extends.of_insert {w w' : Workspace} {doc : Document}
    (h : w'.documents = w.documents.insert doc.uri doc)
    (hold : ∀ before, w.documents.find? doc.uri = some before →
      doc.isEdl = before.isEdl ∧ before.version ≤ doc.version) : w.Extends w' := by
  intro uri before hfind
  rw [h, Table.find?_insert]
  split
  · next huri =>
      subst huri
      exact ⟨doc, rfl, hold before hfind⟩
  · exact ⟨before, hfind, rfl, Int.le_refl _⟩

namespace LintedWorkspace

variable {rules : List Lint.Rule} {lw : LintedWorkspace}
  {outcome : Except Fault Unit × LintedWorkspace}

/-- A request is refused, or open documents are scanned, or a closed one is forgotten. -/
theorem Effect.trichotomy (heffect : Effect rules lw outcome) (hw : lw.workspace.Sound) :
    (∃ f, outcome = (.error f, lw)) ∨
      (∃ w docs, outcome = rescan rules w docs lw.store ∧ lw.workspace.Extends w ∧
        ∀ doc ∈ docs, w.documents.find? doc.uri = some doc) ∨
      ∃ w uri, outcome = (.ok (), ⟨w, lw.store.forget uri⟩) ∧
        w.documents = lw.workspace.documents.erase uri := by
  have hone : ∀ {w : Workspace} {doc : Document},
      w.documents = lw.workspace.documents.insert doc.uri doc →
      ∀ doc' ∈ [doc], w.documents.find? doc'.uri = some doc' := by
    intro w doc hdocuments doc' hmem
    obtain rfl := List.mem_singleton.1 hmem
    rw [hdocuments, Table.find?_insert_self]
  cases heffect with
  | refused f => exact .inl ⟨f, rfl⟩
  | opened active hnew =>
      refine .inr (.inl ⟨_, _, rfl, .of_insert rfl fun before hfind => ?_, hone rfl⟩)
      exact absurd (Table.mem_keys_iff.2 ⟨before, hfind⟩) hnew
  | @changed before text hfind =>
      have hold : ∀ doc, lw.workspace.documents.find? (before.withText text).uri = some doc →
          (before.withText text).isEdl = doc.isEdl ∧
            doc.version ≤ (before.withText text).version := by
        intro doc hdoc
        obtain rfl := Option.some.inj (hfind.symm.trans hdoc)
        refine ⟨rfl, ?_⟩
        simp only [Document.withText]
        omega
      exact .inr (.inl ⟨_, _, rfl, .of_insert rfl hold, hone rfl⟩)
  | closed uri active => exact .inr (.inr ⟨_, uri, rfl, rfl⟩)
  | kept hdocuments hsettings => exact .inr (.inl ⟨_, [], rfl, .of_documents hdocuments, by simp⟩)
  | validated hmem =>
      refine .inr (.inl ⟨_, _, rfl, .of_documents rfl, fun doc hdoc => ?_⟩)
      obtain rfl := List.mem_singleton.1 hdoc
      exact hw.find?_uri hmem
  | reconfigured hdocuments =>
      refine .inr (.inl ⟨_, _, rfl, .of_documents hdocuments, fun doc hdoc => ?_⟩)
      rw [hdocuments] at hdoc ⊢
      exact hw.find?_uri hdoc

/-- The entry is what a complete scan of the document at the address gives now. -/
def IsScan (rules : List Lint.Rule) (w : Workspace) (uri : String) (e : Entry) : Prop :=
  ∃ doc o, w.documents.find? uri = some doc ∧ doc.isEdl = true ∧ w.scan rules doc = .ok o ∧
    e = doc.entry o

/-- An entry after a scan of open documents is the one from before or a complete scan. -/
theorem isScan_of_rescan {w : Workspace} {docs : List Document} {c : Collection} {uri : String}
    {e : Entry} (hopen : ∀ doc ∈ docs, w.documents.find? doc.uri = some doc)
    (h : (rescan rules w docs c).2.store.entries.find? uri = some e) :
    c.entries.find? uri = some e ∨ IsScan rules w uri e := by
  rcases Collection.find?_rescan_cases docs c h with hbefore | ⟨doc, hmem, rfl, hedl, o, ho, he⟩
  · exact .inl hbefore
  · exact .inr ⟨doc, o, hopen doc hmem, hedl, ho, he⟩

/-- An entry after a request is the one from before, and its document is still open if it was, or it
is the complete scan of an open document. -/
theorem Effect.find?_cases (heffect : Effect rules lw outcome) (hw : lw.workspace.Sound)
    {uri : String} {e : Entry} (h : outcome.2.store.entries.find? uri = some e) :
    lw.store.entries.find? uri = some e ∧
        (∀ doc, lw.workspace.documents.find? uri = some doc →
          ∃ doc', outcome.2.workspace.documents.find? uri = some doc' ∧
            doc'.isEdl = doc.isEdl ∧ doc.version ≤ doc'.version) ∨
      IsScan rules outcome.2.workspace uri e := by
  rcases heffect.trichotomy hw with ⟨f, rfl⟩ | ⟨w, docs, rfl, hext, hopen⟩ | ⟨w, k, rfl, hdocuments⟩
  · exact .inl ⟨h, fun doc hfind => ⟨doc, hfind, rfl, Int.le_refl _⟩⟩
  · rcases isScan_of_rescan hopen h with hbefore | hscan
    · exact .inl ⟨hbefore, hext uri⟩
    · exact .inr hscan
  · simp only [Collection.forget, Table.find?_erase] at h
    split at h
    · cases h
    · next hne =>
        refine .inl ⟨h, fun doc hfind => ⟨doc, ?_, rfl, Int.le_refl _⟩⟩
        rw [hdocuments, Table.find?_erase_of_ne hne, hfind]

/-! ### What is open for each entry -/

/-- For each entry a document of the language is open that is no older. -/
def Covered (lw : LintedWorkspace) : Prop :=
  ∀ uri e, lw.store.entries.find? uri = some e →
    ∃ doc v, lw.workspace.documents.find? uri = some doc ∧ doc.isEdl = true ∧
      e.version = some v ∧ v ≤ doc.version

theorem IsScan.covered {w : Workspace} {uri : String} {e : Entry} (h : IsScan rules w uri e) :
    ∃ doc v, w.documents.find? uri = some doc ∧ doc.isEdl = true ∧ e.version = some v ∧
      v ≤ doc.version := by
  obtain ⟨doc, o, hfind, hedl, -, rfl⟩ := h
  exact ⟨doc, doc.version, hfind, hedl, rfl, Int.le_refl _⟩

theorem Effect.covered (heffect : Effect rules lw outcome) (hw : lw.workspace.Sound)
    (hcovered : lw.Covered) : outcome.2.Covered := by
  intro uri e hentry
  rcases heffect.find?_cases hw hentry with ⟨hbefore, hopen⟩ | hscan
  · obtain ⟨doc, v, hfind, hedl, hversion, hle⟩ := hcovered uri e hbefore
    obtain ⟨doc', hfind', hedl', hle'⟩ := hopen doc hfind
    exact ⟨doc', v, hfind', hedl'.trans hedl, hversion, Int.le_trans hle hle'⟩
  · exact hscan.covered

theorem Covered.run (hcovered : lw.Covered) (hw : lw.workspace.Sound) (rs : List Request) :
    (lw.run rules rs).Covered := by
  induction rs generalizing lw with
  | nil => exact hcovered
  | cons r rs ih =>
      refine ih ((effect_step rules hw r).covered hw hcovered) ?_
      rw [step_workspace]
      exact hw.next r

/-! ### Where each entry comes from -/

/-- Each entry after the requests is the complete scan of a document at some moment, and the
document has been open since that moment. -/
def Traced (rules : List Lint.Rule) (lw : LintedWorkspace) (rs : List Request) : Prop :=
  ∀ uri e, (lw.run rules rs).store.entries.find? uri = some e →
    ∃ past rest, rs = past ++ rest ∧
      (∀ mid, mid <+: rest →
        uri ∈ (lw.run rules (past ++ mid)).workspace.documents.keys) ∧
      IsScan rules (lw.run rules past).workspace uri e

theorem IsScan.mem_keys {w : Workspace} {uri : String} {e : Entry} (h : IsScan rules w uri e) :
    uri ∈ w.documents.keys := by
  obtain ⟨doc, -, hfind, -⟩ := h
  exact Table.mem_keys_iff.2 ⟨doc, hfind⟩

/-- An entry that a complete scan gives is traced to the present. -/
theorem IsScan.traced {rs : List Request} {uri : String} {e : Entry}
    (h : IsScan rules (lw.run rules rs).workspace uri e) :
    ∃ past rest, rs = past ++ rest ∧
      (∀ mid, mid <+: rest →
        uri ∈ (lw.run rules (past ++ mid)).workspace.documents.keys) ∧
      IsScan rules (lw.run rules past).workspace uri e := by
  refine ⟨rs, [], (List.append_nil rs).symm, fun mid hmid => ?_, h⟩
  rw [List.prefix_nil.1 hmid, List.append_nil]
  exact h.mem_keys

/-- One more request: an entry from before keeps its trace, and the others are new. -/
theorem Traced.snoc {rs : List Request} (htraced : Traced rules lw rs) (hw : lw.workspace.Sound)
    (r : Request) : Traced rules lw (rs ++ [r]) := by
  have hsound : (lw.run rules rs).workspace.Sound := by
    rw [run_workspace]
    exact hw.nextAll rs
  have hrun : lw.run rules (rs ++ [r]) = ((lw.run rules rs).step rules r).2 := run_append ..
  intro uri e hentry
  rw [hrun] at hentry
  rcases (effect_step rules hsound r).find?_cases hsound hentry with ⟨hbefore, hopen⟩ | hscan
  · obtain ⟨past, rest, rfl, hsince, hscan⟩ := htraced uri e hbefore
    refine ⟨past, rest ++ [r], List.append_assoc .., fun mid hmid => ?_, hscan⟩
    rcases List.prefix_concat_iff.1 hmid with rfl | hmid
    · -- the document was open before the last request, and still is
      obtain ⟨doc, hfind⟩ := Table.mem_keys_iff.1 (hsince rest (List.prefix_refl rest))
      obtain ⟨doc', hfind', -⟩ := hopen doc hfind
      rw [← List.append_assoc, hrun]
      exact Table.mem_keys_iff.2 ⟨doc', hfind'⟩
    · exact hsince mid hmid
  · rw [← hrun] at hscan
    exact hscan.traced

theorem Traced.run {rs : List Request} (htraced : Traced rules lw rs) (hw : lw.workspace.Sound)
    (rs' : List Request) : Traced rules lw (rs ++ rs') := by
  induction rs' generalizing rs with
  | nil => rwa [List.append_nil]
  | cons r rs' ih =>
      have hstep := ih (htraced.snoc hw r)
      rwa [List.append_assoc, List.singleton_append] at hstep

/-! ### Failed requests -/

/-- A request that fails takes no entry away, and each is the one from before or a complete scan. -/
theorem Effect.find?_of_error (heffect : Effect rules lw outcome) (hw : lw.workspace.Sound)
    {f : Fault} (hfailed : outcome.1 = .error f) {uri : String} {e : Entry}
    (h : lw.store.entries.find? uri = some e) :
    ∃ e', outcome.2.store.entries.find? uri = some e' ∧
      (e' = e ∨ IsScan rules outcome.2.workspace uri e' ∧
        ∀ settings, outcome.2.workspace.settings = .ok settings → settings.linting = true) := by
  rcases heffect.trichotomy hw with ⟨f, rfl⟩ | ⟨w, docs, rfl, hext, hopen⟩ | ⟨w, k, rfl, hdocuments⟩
  · exact ⟨e, h, .inl rfl⟩
  · obtain ⟨e', he'⟩ := Collection.find?_rescan_isSome docs lw.store h
    refine ⟨e', he', ?_⟩
    rcases isScan_of_rescan hopen he' with hbefore | hscan
    · exact .inl (Option.some.inj (hbefore.symm.trans h))
    · refine .inr ⟨hscan, fun settings (hsettings : w.settings = .ok settings) => ?_⟩
      -- with linting switched off no scan could have failed
      obtain ⟨_, doc, _, -, -, hfault, -⟩ := Collection.rescan_eq_error_iff.1 hfailed
      rw [Workspace.scan_of_settings hsettings] at hfault
      cases hlinting : settings.linting with
      | true => rfl
      | false =>
          rw [Lint.run_of_not_linting hlinting] at hfault
          cases hfault
  · cases hfailed

/-! ### The start -/

/-- After the first scan of a service all entries are complete scans. -/
theorem isScan_firstScan {σ : Type} {h : Host σ} (hw : h.workspace.Sound) {uri : String}
    {e : Entry} (hentry : (h.firstScan rules).2.entries.find? uri = some e) :
    IsScan rules h.workspace uri e := by
  rcases isScan_of_rescan (fun doc => hw.find?_uri) hentry with hbefore | hscan
  · cases hbefore
  · exact hscan

/-- What a complete scan stores depends on whether linting was switched on. -/
theorem IsScan.diagnostics_eq {w : Workspace} {uri : String} {e : Entry}
    (h : IsScan rules w uri e) {settings : Config.Settings}
    (hsettings : w.settings = .ok settings) :
    ∃ doc, w.documents.find? uri = some doc ∧ e.version = some doc.version ∧
      (settings.linting = false ∧ e.diagnostics = [] ∨
        settings.linting = true ∧
          ∃ o, Lint.run doc.text settings rules = .ok o ∧ e.diagnostics = o.diagnostics) := by
  obtain ⟨doc, o, hfind, -, ho, rfl⟩ := h
  rw [Workspace.scan_of_settings hsettings] at ho
  refine ⟨doc, hfind, rfl, ?_⟩
  cases hlinting : settings.linting with
  | true => exact .inr ⟨rfl, o, ho, rfl⟩
  | false =>
      rw [Lint.run_of_not_linting hlinting] at ho
      obtain rfl := Except.ok.inj ho
      exact .inl ⟨rfl, rfl⟩

end LintedWorkspace

/-! ### Hosts -/

namespace HostM

variable {σ : Type}

/-- **No entry is partial or foreign.**  A service whose rules may fail was activated on a host to
which nothing is attached.  After any requests, accepted, refused or failed, each entry of its
collection belongs to an open document of the language that is no older.  At some moment since the
document was last opened the document had the version of the entry, and the findings are those of
its text at that moment, or there are none because linting was switched off.  A request that fails
leaves each entry as it was, or replaces it by all findings in the document as it is then. -/
theorem entries_are_complete_scans (client : Client σ) (state : σ)
    {entries : List (String × Config.Value)} {w : Workspace}
    (hcreate : Workspace.create entries = .ok w) {rules : List Lint.Rule} {before : List Request}
    {s : ServiceId} {h₁ : Host σ}
    (hactivate : activate client rules
      (Host.after client before { workspace := w, client := state }) = (.ok s, h₁))
    (requests : List Request) :
    ∃ c, (h₁.after client requests).storeOf? s = some c ∧
      (∀ uri e, c.entries.find? uri = some e → ∃ doc v,
        (h₁.after client requests).workspace.documents.find? uri = some doc ∧
        doc.isEdl = true ∧ e.version = some v ∧ v ≤ doc.version ∧
        ∃ past rest, requests = past ++ rest ∧
          (∀ mid, mid <+: rest →
            uri ∈ (h₁.after client (past ++ mid)).workspace.documents.keys) ∧
          ∃ scanned settings,
            (h₁.after client past).workspace.documents.find? uri = some scanned ∧
            scanned.version = v ∧
            (h₁.after client past).workspace.settings = .ok settings ∧
            (settings.linting = false ∧ e.diagnostics = [] ∨
              settings.linting = true ∧ ∃ o, Lint.run scanned.text settings rules = .ok o ∧
                e.diagnostics = o.diagnostics)) ∧
      ∀ r f h', perform client r (h₁.after client requests) = (.error f, h') →
        ∃ c', h'.storeOf? s = some c' ∧
          ∀ uri e, c.entries.find? uri = some e → ∃ e', c'.entries.find? uri = some e' ∧
            (e' = e ∨ ∃ doc settings o, h'.workspace.documents.find? uri = some doc ∧
              h'.workspace.settings = .ok settings ∧ settings.linting = true ∧
              Lint.run doc.text settings rules = .ok o ∧
              e' = ⟨some doc.version, o.diagnostics⟩) := by
  have hw := (Workspace.sound_of_create hcreate).nextAll before
  let h₀ : Host σ := { workspace := w.nextAll before, client := state }
  have hbefore : Host.after client before { workspace := w, client := state } = h₀ :=
    after_of_bare client (bare_mk w state) before
  rw [hbefore] at hactivate
  -- the host behaves as the linted workspace of its first scan, after any requests
  let lw₀ : LintedWorkspace := ⟨h₀.workspace, (h₀.firstScan rules).2⟩
  have hlinted := after_of_activate client (bare_mk _ state) hactivate
  have hworkspace : ∀ rs, (h₁.after client rs).workspace = (lw₀.run rules rs).workspace := by
    intro rs
    obtain ⟨_, _, _, _, hrun, _⟩ := hlinted rs
    exact (congrArg LintedWorkspace.workspace hrun).symm
  have hsound : ∀ rs, (h₁.after client rs).workspace.Sound := by
    intro rs
    rw [hworkspace, LintedWorkspace.run_workspace]
    exact hw.nextAll rs
  have hfirst : ∀ uri e, lw₀.store.entries.find? uri = some e →
      LintedWorkspace.IsScan rules (lw₀.run rules []).workspace uri e :=
    fun uri e hentry => LintedWorkspace.isScan_firstScan hw hentry
  have hcovered : lw₀.Covered := fun uri e hentry => (hfirst uri e hentry).covered
  have htraced : LintedWorkspace.Traced rules lw₀ [] := fun uri e hentry =>
    (hfirst uri e hentry).traced
  obtain ⟨l, linter, c, rfl, hrun, hs⟩ := hlinted requests
  have hstore : (lw₀.run linter.rules requests).store = c := congrArg LintedWorkspace.store hrun
  refine ⟨c, hs.storeOf?_eq, fun uri e hentry => ?_, fun r f h' hfailed => ?_⟩
  · rw [← hstore] at hentry
    obtain ⟨doc, v, hfind, hedl, hversion, hle⟩ := hcovered.run hw requests uri e hentry
    obtain ⟨past, rest, rfl, hsince, hscan⟩ := htraced.run hw requests uri e hentry
    obtain ⟨settings, hsettings⟩ := (hsound past).readable
    rw [← hworkspace] at hfind hscan
    obtain ⟨scanned, hscanned, hversion', hfound⟩ := hscan.diagnostics_eq hsettings
    have hv : scanned.version = v := Option.some.inj (hversion'.symm.trans hversion)
    refine ⟨doc, v, hfind, hedl, hversion, hle, past, rest, rfl, fun mid hmid => ?_, scanned,
      settings, hscanned, hv, hsettings, hfound⟩
    rw [hworkspace]
    exact hsince mid hmid
  · have hends := perform_of_singleService client hs r
    rw [hfailed] at hends
    obtain ⟨hresult, hworkspace', hs'⟩ := hends
    refine ⟨_, hs'.storeOf?_eq, fun uri e hentry => ?_⟩
    have heffect := @LintedWorkspace.effect_step linter.rules
      ⟨(h₁.after client requests).workspace, c⟩ (hsound requests) r
    obtain ⟨e', he', hkept | ⟨⟨doc, o, hfind, -, ho, rfl⟩, hlinting⟩⟩ :=
      heffect.find?_of_error (hsound requests) hresult.symm hentry
    · exact ⟨e', he', .inl hkept⟩
    · have hsound' : h'.workspace.Sound := by
        rw [hworkspace', LintedWorkspace.step_workspace]
        exact (hsound requests).next r
      obtain ⟨settings, hsettings⟩ := hsound'.readable
      rw [← hworkspace'] at hfind hlinting ho
      rw [Workspace.scan_of_settings hsettings] at ho
      refine ⟨_, he', .inr ⟨doc, settings, o, hfind, hsettings, ?_, ho, rfl⟩⟩
      exact hlinting settings hsettings

theorem entries_are_complete_scans_raised :
    ∃ (client : Client Unit) (rule : Lint.Rule) (h₁ : Host Unit) (c : Collection) (doc : Document),
      activate client [rule] (Host.after client []
        { workspace := { configuration := Config.flatten [] }, client := () }) = (.ok ⟨0⟩, h₁) ∧
      (perform client (.changeDocument "a" "!")
        (h₁.after client [.openDocument "a" "x"])).1 = .error (.raised "bang") ∧
      (h₁.after client [.openDocument "a" "x", .changeDocument "a" "!"]).storeOf? ⟨0⟩ = some c ∧
      c.entries.find? "a" = some ⟨some 0, []⟩ ∧
      (h₁.after client [.openDocument "a" "x",
        .changeDocument "a" "!"]).workspace.documents.find? "a" = some doc ∧
      0 ≤ doc.version := by
  have hcreate : Workspace.create [] = .ok { configuration := Config.flatten [] } := rfl
  obtain ⟨run, hrun⟩ : ∃ run, run = activate (.idle : Client Unit)
      [⟨"no-bang", "noBang", "style", "policy",
        fun line _ => if line = "!" then .error (.raised "bang") else .ok []⟩]
      (Host.after .idle []
        { workspace := { configuration := Config.flatten [] }, client := () }) := ⟨_, rfl⟩
  have hresult : run.1 = .ok ⟨0⟩ := by
    rw [hrun]
    rfl
  have hactivate := hrun.symm.trans (Prod.ext hresult rfl : run = (.ok ⟨0⟩, run.2))
  obtain ⟨c, hstore, hentries, -⟩ := entries_are_complete_scans _ () hcreate hactivate
    [.openDocument "a" "x", .changeDocument "a" "!"]
  have hfound : ((run.2.after .idle [.openDocument "a" "x", .changeDocument "a" "!"]).storeOf?
      ⟨0⟩).bind (·.entries.find? "a") = some ⟨some 0, []⟩ := by
    rw [hrun]
    rfl
  have hentry : c.entries.find? "a" = some ⟨some 0, []⟩ := by
    rwa [hstore, Option.bind_some] at hfound
  have hfailed : (perform .idle (.changeDocument "a" "!")
      (run.2.after .idle [.openDocument "a" "x"])).1 = .error (.raised "bang") := by
    rw [hrun]
    rfl
  obtain ⟨doc, v, hfind, -, hversion, hle, -⟩ := hentries "a" _ hentry
  obtain rfl := Option.some.inj hversion
  exact ⟨_, _, run.2, c, doc, hactivate, hfailed, hstore, hentry, hfind, hle⟩

end HostM

end Edl
