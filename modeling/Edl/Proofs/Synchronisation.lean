/-
The findings of a service follow the workspace.

A service that is alone on a host, with valid rules that never fail, keeps its collection in step
with the workspace: after every request, accepted or not, it holds one entry for each open document
of the language, in the order of the documents, and the entry is what a scan of the document gives
under the settings of that moment.  The proof is about linted workspaces: each effect of a request
keeps the collection in step, and the first scan of a service puts it in step.

Main definitions:

* `Edl.Lint.Rule.NeverFails` — a rule that gives findings on every line;
* `Edl.LintedWorkspace.InStep` — the collection is in step with the workspace.

Main results:

* `Edl.Lint.run_of_neverFails` — scanning with such rules succeeds;
* `Edl.LintedWorkspace.Effect.inStep`, `Edl.LintedWorkspace.InStep.run` — requests keep it in step;
* `Edl.LintedWorkspace.inStep_firstScan` — a service starts in step;
* `Edl.HostM.store_follows_workspace` — **the findings follow the workspace**.
-/

import Edl.Proofs.SingleService

set_option relaxedAutoImplicit false
set_option autoImplicit false

namespace Edl

/-! ### Rules that never fail -/

namespace Lint

/-- The rule gives findings on every line. -/
def Rule.NeverFails (rule : Rule) : Prop :=
  ∀ (line : String) (number : Nat), ∃ found, rule.run line number = .ok found

variable {rules : List Rule}

theorem scanLine_of_neverFails (h : ∀ rule ∈ rules, rule.NeverFails) (line : String)
    (number : Nat) : ∃ found, scanLine line number rules = .ok found := by
  induction rules with
  | nil => exact ⟨[], rfl⟩
  | cons rule rules ih =>
      obtain ⟨found, hrun⟩ := h rule (List.mem_cons_self ..) line number
      obtain ⟨others, hrest⟩ := ih fun r hr => h r (List.mem_cons_of_mem _ hr)
      refine ⟨found ++ others, ?_⟩
      rw [scanLine, hrun, hrest]
      rfl

theorem scanLines_of_neverFails (h : ∀ rule ∈ rules, rule.NeverFails) (number : Nat)
    (lines : List String) : ∃ found, scanLines rules number lines = .ok found := by
  induction lines generalizing number with
  | nil => exact ⟨[], rfl⟩
  | cons line lines ih =>
      obtain ⟨found, hline⟩ := scanLine_of_neverFails h line number
      obtain ⟨others, hrest⟩ := ih (number + 1)
      refine ⟨found ++ others, ?_⟩
      rw [scanLines, hline, hrest]
      rfl

/-- Scanning with valid rules that never fail succeeds. -/
theorem run_of_neverFails (hrules : checkRules rules = .ok ())
    (h : ∀ rule ∈ rules, rule.NeverFails) (text : String) (settings : Config.Settings) :
    ∃ o, run text settings rules = .ok o := by
  cases hlinting : settings.linting with
  | true =>
      obtain ⟨found, hscan⟩ := scanLines_of_neverFails h 0 (Text.splitLines text)
      rw [run_of_linting hlinting hrules, hscan]
      exact ⟨_, rfl⟩
  | false => exact ⟨_, run_of_not_linting hlinting rules text⟩

/-- Marking what is too long in a line always succeeds. -/
theorem neverFails_lineTooLongRule (limit : Nat) : (lineTooLongRule limit).NeverFails := by
  intro line number
  by_cases hshort : (line.toList.length : Int) ≤ limit
  · exact ⟨[], Check.report_of_none (if_pos hshort) number⟩
  · have hle : limit ≤ line.toList.length := by omega
    have hreport : (lineTooLongRule limit).run line number = _ :=
      Check.report_of_some (if_neg hshort) number
    rw [hreport, Finding.place, Text.Range.onLine_natCast hle]
    exact ⟨_, rfl⟩

end Lint

/-- Under readable settings, every document can be scanned with such rules. -/
theorem Workspace.Readable.scan {w : Workspace} (hread : w.Readable) {rules : List Lint.Rule}
    (hrules : Lint.checkRules rules = .ok ()) (h : ∀ rule ∈ rules, rule.NeverFails)
    (d : Document) : ∃ o, w.scan rules d = .ok o := by
  obtain ⟨settings, hsettings⟩ := hread
  rw [scan_of_settings hsettings]
  exact Lint.run_of_neverFails hrules h d.text settings

/-! ### Collections in step with the workspace -/

/-- The open documents of the language have the entries of their scans, and there are no others. -/
structure LintedWorkspace.InStep (rules : List Lint.Rule) (lw : LintedWorkspace) : Prop where
  keys : lw.store.entries.keys = lw.workspace.documents.keysWhere Document.isEdl
  entries : ∀ uri doc, lw.workspace.documents.find? uri = some doc → doc.isEdl = true →
    ∃ o, lw.workspace.scan rules doc = .ok o ∧ lw.store.entries.find? uri = some (doc.entry o)

namespace LintedWorkspace

variable {rules : List Lint.Rule} {lw : LintedWorkspace}

theorem InStep.mem_keys (hs : lw.InStep rules) {uri : String} {doc : Document}
    (hfind : lw.workspace.documents.find? uri = some doc) (hedl : doc.isEdl = true) :
    uri ∈ lw.store.entries.keys := by
  rw [hs.keys]
  exact Table.mem_keysWhere_iff.2 ⟨doc, hfind, hedl⟩

/-- A document that is not open has no entry. -/
theorem InStep.not_mem_keys (hs : lw.InStep rules) {uri : String}
    (hnew : uri ∉ lw.workspace.documents.keys) : uri ∉ lw.store.entries.keys := by
  rw [hs.keys, Table.mem_keysWhere_iff]
  rintro ⟨doc, hfind, -⟩
  exact hnew (Table.mem_keys_iff.2 ⟨doc, hfind⟩)

/-- The entries are not newer than the documents. -/
theorem InStep.isCurrent (hs : lw.InStep rules) {doc doc' : Document}
    (hfind : lw.workspace.documents.find? doc'.uri = some doc) (hedl : doc.isEdl = true)
    (hversion : doc.version ≤ doc'.version) : lw.store.IsCurrent doc' := by
  intro e v he hv
  obtain ⟨o, -, hentry⟩ := hs.entries doc'.uri doc hfind hedl
  rw [hentry] at he
  obtain rfl := Option.some.inj he
  obtain rfl := Option.some.inj hv
  exact hversion

/-- After a document was written and scanned, all entries are right. -/
theorem InStep.entries_insert (hs : lw.InStep rules) {w : Workspace} {doc : Document}
    (hdocuments : w.documents = lw.workspace.documents.insert doc.uri doc)
    (hsettings : w.settings = lw.workspace.settings)
    (hscan : ∃ o, w.scan rules doc = .ok o) (hcurrent : doc.isEdl = true → lw.store.IsCurrent doc)
    (uri : String) (doc' : Document) (hfind : w.documents.find? uri = some doc')
    (hedl : doc'.isEdl = true) :
    ∃ o, w.scan rules doc' = .ok o ∧
      (Collection.rescan (w.scan rules) [doc] lw.store).2.entries.find? uri =
        some (doc'.entry o) := by
  rw [hdocuments, Table.find?_insert] at hfind
  split at hfind
  · next huri =>
      obtain rfl := Option.some.inj hfind
      subst huri
      obtain ⟨o, ho⟩ := hscan
      rw [Collection.rescan_singleton_of_ok hedl ho]
      exact ⟨o, ho, Collection.find?_accept_self (hcurrent hedl) o⟩
  · next huri =>
      obtain ⟨o, ho, hentry⟩ := hs.entries uri doc' hfind hedl
      rw [← Workspace.scan_congr hsettings] at ho
      refine ⟨o, ho, ?_⟩
      rw [Collection.find?_rescan_of_not_mem _ _ (by simpa using huri), hentry]

/-- Opening a document keeps the collection in step. -/
theorem InStep.opened (hs : lw.InStep rules) {w : Workspace} {doc : Document}
    (hnew : doc.uri ∉ lw.workspace.documents.keys)
    (hdocuments : w.documents = lw.workspace.documents.insert doc.uri doc)
    (hsettings : w.settings = lw.workspace.settings)
    (hscan : ∃ o, w.scan rules doc = .ok o) :
    (rescan rules w [doc] lw.store).2.InStep rules := by
  have hfresh := hs.not_mem_keys hnew
  have hcurrent : lw.store.IsCurrent doc := by
    intro e v he
    rw [Table.find?_eq_none_iff.2 hfresh] at he
    cases he
  refine ⟨?_, hs.entries_insert hdocuments hsettings hscan fun _ => hcurrent⟩
  simp only [rescan]
  rw [hdocuments, Table.keysWhere_insert_of_not_mem hnew, ← hs.keys]
  obtain ⟨o, ho⟩ := hscan
  by_cases hedl : doc.isEdl = true
  · rw [Collection.rescan_singleton_of_ok hedl ho, Collection.keys_accept_of_not_mem _ hfresh,
      if_pos hedl]
  · rw [Collection.rescan_singleton_of_not_edl hedl, if_neg hedl, List.append_nil]

/-- Changing a document keeps the collection in step. -/
theorem InStep.changed (hs : lw.InStep rules) {w : Workspace} {before : Document} {text : String}
    (hfind : lw.workspace.documents.find? before.uri = some before)
    (hdocuments : w.documents =
      lw.workspace.documents.insert before.uri (before.withText text))
    (hsettings : w.settings = lw.workspace.settings)
    (hscan : ∃ o, w.scan rules (before.withText text) = .ok o) :
    (rescan rules w [before.withText text] lw.store).2.InStep rules := by
  have hcurrent : (before.withText text).isEdl = true →
      lw.store.IsCurrent (before.withText text) := by
    intro hedl
    have hnewer : before.version ≤ (before.withText text).version := by
      simp only [Document.withText]
      omega
    exact hs.isCurrent hfind hedl hnewer
  refine ⟨?_, hs.entries_insert hdocuments hsettings hscan hcurrent⟩
  simp only [rescan]
  have hsame : (before.withText text).isEdl = before.isEdl := rfl
  rw [hdocuments, Table.keysWhere_insert_of_find? hfind hsame, ← hs.keys]
  refine Collection.keys_rescan_of_mem _ _ fun doc hmem hedl => ?_
  obtain rfl := List.mem_singleton.1 hmem
  exact hs.mem_keys hfind hedl

/-- Closing a document keeps the collection in step. -/
theorem InStep.closed (hs : lw.InStep rules) {w : Workspace} {uri : String}
    (hdocuments : w.documents = lw.workspace.documents.erase uri)
    (hsettings : w.settings = lw.workspace.settings) :
    InStep rules ⟨w, lw.store.forget uri⟩ where
  keys := by
    simp only [Collection.forget]
    rw [hdocuments, Table.keysWhere_erase, Table.keys_erase, hs.keys]
  entries := by
    intro k doc hfind hedl
    simp only [Collection.forget] at hfind ⊢
    rw [hdocuments, Table.find?_erase] at hfind
    rw [Table.find?_erase, Workspace.scan_congr hsettings]
    split at hfind
    · cases hfind
    · next hk =>
        rw [if_neg hk]
        exact hs.entries k doc hfind hedl

/-- Scanning a document once more finds what is stored. -/
theorem InStep.validated (hs : lw.InStep rules) (hw : lw.workspace.Sound) {doc : Document}
    (hmem : doc ∈ lw.workspace.documents.values) :
    (rescan rules lw.workspace [doc] lw.store).2 = lw := by
  simp only [rescan]
  by_cases hedl : doc.isEdl = true
  · obtain ⟨o, ho, hentry⟩ := hs.entries doc.uri doc (hw.find?_uri hmem) hedl
    rw [Collection.rescan_singleton_of_ok hedl ho, Collection.accept_of_find? hentry]
  · rw [Collection.rescan_singleton_of_not_edl hedl]

/-- Scanning all documents under new settings keeps the collection in step. -/
theorem InStep.reconfigured (hs : lw.InStep rules) (hw : lw.workspace.Sound) {w : Workspace}
    (hdocuments : w.documents = lw.workspace.documents)
    (hscan : ∀ doc, ∃ o, w.scan rules doc = .ok o) :
    (rescan rules w w.documents.values lw.store).2.InStep rules := by
  rw [hdocuments]
  obtain ⟨-, hall⟩ := Collection.rescan_of_scans lw.workspace.documents.values lw.store
    hw.nodup_uri_values (fun doc _ _ => hscan doc)
    (fun doc hmem hedl => hs.isCurrent (hw.find?_uri hmem) hedl (Int.le_refl _))
  refine ⟨?_, fun uri doc hfind hedl => ?_⟩
  · simp only [rescan]
    rw [hdocuments, ← hs.keys]
    exact Collection.keys_rescan_of_mem _ _ fun doc hmem hedl =>
      hs.mem_keys (hw.find?_uri hmem) hedl
  · simp only [rescan] at hfind ⊢
    rw [hdocuments] at hfind
    obtain rfl := hw.keyed uri doc hfind
    exact hall doc (Table.mem_values_iff.2 ⟨_, hfind⟩) hedl

/-- Every effect of a request keeps the collection in step, if documents can be scanned after it. -/
theorem Effect.inStep {outcome : Except Fault Unit × LintedWorkspace}
    (heffect : Effect rules lw outcome) (hw : lw.workspace.Sound) (hs : lw.InStep rules)
    (hscan : ∀ doc, ∃ o, outcome.2.workspace.scan rules doc = .ok o) :
    outcome.2.InStep rules := by
  cases heffect with
  | refused f => exact hs
  | opened active hnew => exact hs.opened hnew rfl rfl (hscan _)
  | changed text hfind => exact hs.changed hfind rfl rfl (hscan _)
  | closed uri active => exact hs.closed rfl rfl
  | kept hdocuments hsettings =>
      refine ⟨by rw [hdocuments, ← hs.keys], fun uri doc hfind hedl => ?_⟩
      rw [hdocuments] at hfind
      rw [Workspace.scan_congr hsettings]
      exact hs.entries uri doc hfind hedl
  | validated hmem =>
      rw [hs.validated hw hmem]
      exact hs
  | reconfigured hdocuments => exact hs.reconfigured hw hdocuments hscan

/-- Requests keep the collection in step, if any readable settings allow documents to be scanned. -/
theorem InStep.run (hs : lw.InStep rules) (hw : lw.workspace.Sound)
    (hscan : ∀ w : Workspace, w.Readable → ∀ doc, ∃ o, w.scan rules doc = .ok o)
    (rs : List Request) : (lw.run rules rs).InStep rules := by
  induction rs generalizing lw with
  | nil => exact hs
  | cons r rs ih =>
      have hw' : (lw.step rules r).2.workspace.Sound := by
        rw [step_workspace]
        exact hw.next r
      exact ih ((effect_step rules hw r).inStep hw hs (hscan _ hw'.readable)) hw'

/-- The first scan of a service puts it in step. -/
theorem inStep_firstScan {σ : Type} {h : Host σ} (hw : h.workspace.Sound)
    (hscan : ∀ doc, ∃ o, h.workspace.scan rules doc = .ok o) :
    (h.firstScan rules).1 = .ok () ∧ InStep rules ⟨h.workspace, (h.firstScan rules).2⟩ := by
  obtain ⟨hok, hall⟩ := Collection.rescan_of_scans h.workspace.documents.values
    Host.freshCollection hw.nodup_uri_values (fun doc _ _ => hscan doc)
    (fun doc _ _ e v he => by cases he)
  refine ⟨hok, ?_, fun uri doc hfind hedl => ?_⟩
  · have hkeys := Collection.keys_rescan_of_fresh _ Host.freshCollection hw.nodup_uri_values hok
      (fun _ _ hmem => by cases hmem)
    rw [hw.map_uri_filter] at hkeys
    exact hkeys
  · obtain rfl := hw.keyed uri doc hfind
    exact hall doc (Table.mem_values_iff.2 ⟨_, hfind⟩) hedl

end LintedWorkspace

/-! ### Hosts -/

namespace HostM

variable {σ : Type}

/-- The command of a service that is in step answers what is stored, and stores nothing new. -/
theorem execute_of_inStep (client : Client σ) {h : Host σ} {s : ServiceId} {l : LinterId}
    {linter : Linter} {c : Collection} (hs : h.SingleService s l linter c) (hw : h.workspace.Sound)
    (hstep : LintedWorkspace.InStep linter.rules ⟨h.workspace, c⟩) :
    ∃ answer h', execute client validateCommand h = (.ok answer, h') ∧
      h'.storeOf? s = some c ∧
      match h.workspace.activeDocument.filter Document.isEdl with
      | some d => ∃ e, c.entries.find? d.uri = some e ∧ answer = .diagnostics e.diagnostics
      | none => answer = .value .null := by
  have hnone : (∀ d, h.workspace.activeDocument = some d → ¬d.isEdl = true) →
      ∃ answer h', execute client validateCommand h = (.ok answer, h') ∧
        h'.storeOf? s = some c ∧ answer = .value .null := by
    intro hno
    obtain ⟨h', hrun, -, hs'⟩ := validateActive_of_no_document client hs hno
    rw [execute_of_singleService client hs, Handler.run, bind_of_ok hrun]
    exact ⟨_, h', rfl, hs'.storeOf?_eq, rfl⟩
  cases hactive : h.workspace.activeDocument with
  | none => exact hnone (by simp [hactive])
  | some d =>
      rw [Option.filter_some]
      by_cases hedl : d.isEdl = true
      · have hmem := Workspace.mem_values_of_activeDocument hactive
        obtain ⟨o, ho, hentry⟩ := hstep.entries d.uri d (hw.find?_uri hmem) hedl
        obtain ⟨h', hrun, -, hs'⟩ := validateActive_of_scan_ok client hs hactive hedl ho
        rw [Collection.accept_of_find? hentry] at hrun hs'
        rw [execute_of_singleService client hs, Handler.run, bind_of_ok hrun, if_pos hedl]
        refine ⟨_, h', rfl, hs'.storeOf?_eq, d.entry o, hentry, ?_⟩
        rw [Collection.get, hentry]
      · rw [if_neg hedl]
        exact hnone (by simp [hactive, hedl])

/-- **The findings follow the workspace.**  A service with valid rules that never fail is activated
on a host to which nothing is attached.  After any requests, accepted or not, its collection holds
one entry for each open document of the language, in the order of the documents, with the version
of the document and what linting its text gives under the settings of that moment; and its command
answers what is stored for the active document, without changing it. -/
theorem store_follows_workspace (client : Client σ) (state : σ)
    {entries : List (String × Config.Value)} {w : Workspace}
    (hcreate : Workspace.create entries = .ok w) {rules : List Lint.Rule}
    (hrules : Lint.checkRules rules = .ok ()) (htotal : ∀ rule ∈ rules, rule.NeverFails)
    (before : List Request) :
    ∃ s h₁, activate client rules
        (Host.after client before { workspace := w, client := state }) = (.ok s, h₁) ∧
      ∀ after h, h₁.after client after = h → ∃ c settings,
        h.workspace = (w.nextAll before).nextAll after ∧
        h.workspace.settings = .ok settings ∧
        h.storeOf? s = some c ∧ c.disposed = false ∧
        c.entries.keys = (h.workspace.documents.values.filter Document.isEdl).map Document.uri ∧
        (∀ d ∈ h.workspace.documents.values, d.isEdl = true →
          ∃ o, Lint.run d.text settings rules = .ok o ∧
            c.entries.find? d.uri = some ⟨some d.version, o.diagnostics⟩) ∧
        ∃ answer h', execute client validateCommand h = (.ok answer, h') ∧
          h'.storeOf? s = some c ∧
          match h.workspace.activeDocument.filter Document.isEdl with
          | some d => ∃ e, c.entries.find? d.uri = some e ∧ answer = .diagnostics e.diagnostics
          | none => answer = .value .null := by
  have hscan : ∀ w : Workspace, w.Readable → ∀ doc, ∃ o, w.scan rules doc = .ok o :=
    fun w hread => hread.scan hrules htotal
  have hw := (Workspace.sound_of_create hcreate).nextAll before
  -- before the activation nothing is attached, so only the workspace has changed
  let h₀ : Host σ := { workspace := w.nextAll before, client := state }
  have hbefore : Host.after client before { workspace := w, client := state } = h₀ :=
    after_of_bare client (bare_mk w state) before
  rw [hbefore]
  obtain ⟨hok, hstep⟩ := @LintedWorkspace.inStep_firstScan rules σ h₀ hw (hscan _ hw.readable)
  have hadmitted : h₀.admission rules = .ok () := admission_eq_ok_iff.2 ⟨hrules, hok, rfl⟩
  obtain ⟨records, hactivate⟩ := activate_of_admission client hadmitted
  refine ⟨_, _, hactivate, ?_⟩
  rintro after h rfl
  -- from then on the host behaves as a linted workspace that is in step
  obtain ⟨l, linter, c, rfl, hrun, hs⟩ :=
    after_of_activate client (bare_mk _ state) hactivate after
  have hstep' := hstep.run hw hscan after
  have hworkspace := LintedWorkspace.run_workspace linter.rules
    ⟨h₀.workspace, (h₀.firstScan linter.rules).2⟩ after
  rw [hrun] at hstep' hworkspace
  have hw' := hw.nextAll after
  rw [← hworkspace] at hw'
  obtain ⟨settings, hsettings⟩ := hw'.readable
  refine ⟨c, settings, hworkspace, hsettings, hs.storeOf?_eq, hs.feeds.alive, ?_, ?_,
    execute_of_inStep client hs hw' hstep'⟩
  · rw [hw'.map_uri_filter]
    exact hstep'.keys
  · intro d hmem hedl
    obtain ⟨o, ho, hentry⟩ := hstep'.entries d.uri d (hw'.find?_uri hmem) hedl
    exact ⟨o, (Workspace.scan_of_settings hsettings linter.rules d).symm.trans ho, hentry⟩

theorem store_follows_workspace_lineTooLong :
    Lint.checkRules [Lint.lineTooLongRule 4] = .ok () ∧
      ∃ (s : ServiceId) (h₁ : Host Unit) (c : Collection),
        activate .idle [Lint.lineTooLongRule 4]
          (Host.after .idle [.openDocument "a" "emit(x)"]
            { workspace := { configuration := Config.flatten [("other", .null)] }, client := () }) =
          (.ok s, h₁) ∧
        (h₁.after .idle
          [.openDocument "b" "" "text", .openDocument "c" "", .changeDocument "a" "emit",
            .closeDocument "d"]).storeOf? s = some c ∧
        c.entries.keys = ["a", "c"] := by
  have hrules : Lint.checkRules [Lint.lineTooLongRule 4] = .ok () := rfl
  have htotal : ∀ rule ∈ [Lint.lineTooLongRule 4], rule.NeverFails := by
    intro rule hmem
    obtain rfl := List.mem_singleton.1 hmem
    exact Lint.neverFails_lineTooLongRule 4
  obtain ⟨s, h₁, hactivate, hafter⟩ := store_follows_workspace .idle ()
    (rfl : Workspace.create [("other", .null)] = .ok { configuration := _ }) hrules htotal
    [.openDocument "a" "emit(x)"]
  obtain ⟨c, settings, hworkspace, -, hstore, -, hkeys, -⟩ := hafter
    [.openDocument "b" "" "text", .openDocument "c" "", .changeDocument "a" "emit",
      .closeDocument "d"] _ rfl
  refine ⟨hrules, s, h₁, c, hactivate, hstore, ?_⟩
  rw [hkeys, hworkspace]
  rfl

end HostM

end Edl
