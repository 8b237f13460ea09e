/-
Scanning documents one after another into a collection.

A linter writes to its collection by going through a list of documents: those that are not of the
language are passed over, and of the others each is scanned and its findings written under its
version, until a scan fails.  Seen from the collection this is a pure function,
`Edl.Collection.rescan`, of the list, of what a scan gives, and of the collection before; opening
and changing a document, a change of the settings and the command of a service all come down to it
with different lists.

Main definitions:

* `Edl.Workspace.scan` — what scanning a document gives under the settings of a workspace;
* `Edl.Collection.accept` — a write that is ignored when it is stale;
* `Edl.Collection.rescan` — scanning documents into a collection;
* `Edl.FirstFault` — the fault of the first document that cannot be scanned.

Main results:

* `Edl.Collection.rescan_eq_error_iff` — scanning ends with the first fault;
* `Edl.Collection.find?_rescan_cases` — an entry is the one from before or a complete scan;
* `Edl.Collection.find?_rescan_isSome` — no entry is lost;
* `Edl.Collection.rescan_of_scans` — when no scan fails, every document has the entry of its scan;
* `Edl.Collection.keys_rescan_of_mem`, `Edl.Collection.keys_rescan_of_fresh` — the order of the
  entries.
-/

import Edl.Lint.Scan
import Edl.Proofs.Configuration
import Edl.Collection

set_option relaxedAutoImplicit false
set_option autoImplicit false

namespace Edl

/-- With linting switched on, what linting gives is what the rules find. -/
theorem Lint.run_of_linting {settings : Config.Settings} {rules : List Lint.Rule}
    (hlinting : settings.linting = true) (hrules : Lint.checkRules rules = .ok ())
    (text : String) :
    Lint.run text settings rules =
      (Lint.scanLines rules 0 (Text.splitLines text)).map
        fun found => ⟨true, (Text.splitLines text).length, found⟩ := by
  rw [Lint.run, if_pos hlinting, hrules]
  dsimp only
  cases Lint.scanLines rules 0 (Text.splitLines text) <;> rfl

/-- With linting switched off nothing is found, and nothing can fail. -/
theorem Lint.run_of_not_linting {settings : Config.Settings} (hlinting : settings.linting = false)
    (rules : List Lint.Rule) (text : String) :
    Lint.run text settings rules = .ok ⟨false, 0, []⟩ := by
  rw [Lint.run, hlinting]
  rfl

/-- What scanning a document gives under the settings of a workspace. -/
def Workspace.scan (w : Workspace) (rules : List Lint.Rule) (d : Document) :
    Except Fault Lint.Outcome := do
  let settings ← w.settings
  Lint.run d.text settings rules

theorem Workspace.scan_of_settings {w : Workspace} {settings : Config.Settings}
    (h : w.settings = .ok settings) (rules : List Lint.Rule) (d : Document) :
    w.scan rules d = Lint.run d.text settings rules := by
  rw [scan, h]
  rfl

theorem Workspace.scan_of_error {w : Workspace} {f : Fault} (h : w.settings = .error f)
    (rules : List Lint.Rule) (d : Document) : w.scan rules d = .error f := by
  rw [scan, h]
  rfl

/-- With rules that may be used, a scan fails exactly if linting is on and a rule fails. -/
theorem Workspace.scan_eq_error_iff {w : Workspace} {settings : Config.Settings}
    (h : w.settings = .ok settings) {rules : List Lint.Rule}
    (hrules : Lint.checkRules rules = .ok ()) {d : Document} {f : Fault} :
    w.scan rules d = .error f ↔
      settings.linting = true ∧ Lint.scanLines rules 0 (Text.splitLines d.text) = .error f := by
  rw [scan_of_settings h]
  cases hlinting : settings.linting with
  | false => simp [Lint.run_of_not_linting hlinting]
  | true =>
      rw [Lint.run_of_linting hlinting hrules]
      cases Lint.scanLines rules 0 (Text.splitLines d.text) <;> simp [Except.map]

/-- A scan looks at nothing of the workspace but its settings. -/
theorem Workspace.scan_congr {w w' : Workspace} (h : w'.settings = w.settings)
    (rules : List Lint.Rule) : w'.scan rules = w.scan rules := by
  funext d
  rw [scan, scan, h]

/-! ### The first fault -/

/-- The fault of the first document of the language that cannot be scanned. -/
def FirstFault {α : Type} (scan : Document → Except Fault α) (ds : List Document) (f : Fault) :
    Prop :=
  ∃ front d back, ds = front ++ d :: back ∧ d.isEdl = true ∧ scan d = .error f ∧
    ∀ d' ∈ front, d'.isEdl = true → ∀ f', scan d' ≠ .error f'

section

variable {α β : Type} {scan : Document → Except Fault α} {ds : List Document} {d : Document}
  {f : Fault}

/-- A document that does not fail is passed over. -/
theorem firstFault_cons_of_pass (hpass : d.isEdl = true → ∀ f', scan d ≠ .error f') :
    FirstFault scan (d :: ds) f ↔ FirstFault scan ds f := by
  constructor
  · rintro ⟨front, d', back, hds, hedl, hscan, hfront⟩
    cases front with
    | nil =>
        obtain ⟨rfl, rfl⟩ := List.cons.inj hds
        exact absurd hscan (hpass hedl f)
    | cons first front =>
        obtain ⟨rfl, rfl⟩ := List.cons.inj hds
        refine ⟨front, d', back, rfl, hedl, hscan, fun d'' h => ?_⟩
        exact hfront d'' (List.mem_cons_of_mem _ h)
  · rintro ⟨front, d', back, rfl, hedl, hscan, hfront⟩
    refine ⟨d :: front, d', back, rfl, hedl, hscan, fun d'' h => ?_⟩
    rcases List.mem_cons.1 h with rfl | h
    · exact hpass
    · exact hfront d'' h

theorem firstFault_cons_of_ok {a : α} (hscan : scan d = .ok a) :
    FirstFault scan (d :: ds) f ↔ FirstFault scan ds f := by
  refine firstFault_cons_of_pass fun _ f' hf' => ?_
  rw [hscan] at hf'
  cases hf'

theorem firstFault_cons_of_not_edl (hedl : ¬d.isEdl = true) :
    FirstFault scan (d :: ds) f ↔ FirstFault scan ds f :=
  firstFault_cons_of_pass fun h => absurd h hedl

theorem firstFault_cons_of_error {g : Fault} (hedl : d.isEdl = true) (hscan : scan d = .error g) :
    FirstFault scan (d :: ds) f ↔ f = g := by
  constructor
  · rintro ⟨front, d', back, hds, -, hscan', hfront⟩
    cases front with
    | nil =>
        obtain ⟨rfl, rfl⟩ := List.cons.inj hds
        exact Except.error.inj (hscan'.symm.trans hscan)
    | cons first front =>
        obtain ⟨rfl, rfl⟩ := List.cons.inj hds
        exact absurd hscan (hfront d (List.mem_cons_self ..) hedl g)
  · rintro rfl
    exact ⟨[], d, ds, rfl, hedl, hscan, by simp⟩

/-- There is a first fault if some document cannot be scanned. -/
theorem exists_firstFault_iff :
    (∃ f, FirstFault scan ds f) ↔ ∃ d ∈ ds, d.isEdl = true ∧ ∃ f, scan d = .error f := by
  constructor
  · rintro ⟨f, front, d, back, rfl, hedl, hscan, -⟩
    exact ⟨d, by simp, hedl, f, hscan⟩
  · rintro ⟨d, hd, hedl, f, hscan⟩
    induction ds with
    | nil => cases hd
    | cons first ds ih =>
        by_cases hfirst : first.isEdl = true ∧ ∃ g, scan first = .error g
        · obtain ⟨hfirst, g, hg⟩ := hfirst
          exact ⟨g, (firstFault_cons_of_error hfirst hg).2 rfl⟩
        · -- the first one does not fail, so the document is another
          rcases List.mem_cons.1 hd with rfl | hd
          · exact absurd ⟨hedl, f, hscan⟩ hfirst
          · obtain ⟨g, hg⟩ := ih hd
            exact ⟨g, (firstFault_cons_of_pass fun h f' hf' => hfirst ⟨h, f', hf'⟩).2 hg⟩

/-- Only the faults of the scans count. -/
theorem firstFault_congr {scan' : Document → Except Fault β}
    (hsame : ∀ d f, scan d = .error f ↔ scan' d = .error f) :
    FirstFault scan ds f ↔ FirstFault scan' ds f := by
  simp only [FirstFault, ne_eq, hsame]

end

/-- The entry of a document after a scan. -/
def Document.entry (d : Document) (o : Lint.Outcome) : Entry :=
  ⟨some d.version, o.diagnostics⟩

namespace Collection

/-! ### One write -/

/-- The collection after a write, which is ignored when it is stale. -/
def accept (c : Collection) (uri : String) (e : Entry) : Collection :=
  if c.isStale uri e then c else { c with entries := c.entries.insert uri e }

/-- The collection without the entry of a document. -/
def forget (c : Collection) (uri : String) : Collection :=
  { c with entries := c.entries.erase uri }

@[simp] theorem accept_name (c : Collection) (uri : String) (e : Entry) :
    (c.accept uri e).name = c.name := by
  unfold accept
  split <;> rfl

@[simp] theorem accept_emitter (c : Collection) (uri : String) (e : Entry) :
    (c.accept uri e).emitter = c.emitter := by
  unfold accept
  split <;> rfl

@[simp] theorem accept_disposed (c : Collection) (uri : String) (e : Entry) :
    (c.accept uri e).disposed = c.disposed := by
  unfold accept
  split <;> rfl

/-- A write that is accepted changes nothing but the entries. -/
theorem eq_of_write {c c' : Collection} {uri : String} {e : Entry}
    (h : c.write uri e = .ok (some c')) : c' = { c with entries := c.entries.insert uri e } := by
  unfold write at h
  cases halive : c.checkAlive with
  | error f => simp [halive, bind, Except.bind] at h
  | ok _ =>
      simp only [halive, bind, Except.bind, pure, Except.pure, Except.ok.injEq] at h
      split at h
      · cases h
      · exact (Option.some.inj h).symm

theorem eq_of_delete {c c' : Collection} {uri : String} (h : c.delete uri = .ok (some c')) :
    c' = c.forget uri := by
  unfold delete at h
  cases halive : c.checkAlive with
  | error f => simp [halive, bind, Except.bind] at h
  | ok _ =>
      simp only [halive, bind, Except.bind, pure, Except.pure, Except.ok.injEq] at h
      split at h
      · exact (Option.some.inj h).symm
      · cases h

theorem checkAlive_of_alive {c : Collection} (h : c.disposed = false) : c.checkAlive = .ok () := by
  rw [checkAlive, h]
  rfl

/-- A collection that is not disposed takes every write that is not stale. -/
theorem write_of_alive {c : Collection} (h : c.disposed = false) (uri : String) (e : Entry) :
    c.write uri e =
      .ok (if c.isStale uri e then none
        else some { c with entries := c.entries.insert uri e }) := by
  rw [write, checkAlive_of_alive h]
  rfl

theorem delete_of_alive {c : Collection} (h : c.disposed = false) (uri : String) :
    c.delete uri = .ok (if c.entries.contains uri then some (c.forget uri) else none) := by
  rw [delete, checkAlive_of_alive h]
  rfl

/-- There is nothing to forget of a document that has no entry. -/
theorem forget_of_not_contains {c : Collection} {uri : String}
    (h : c.entries.contains uri = false) : c.forget uri = c := by
  rw [forget, Table.erase_of_not_mem (Table.contains_eq_false_iff.1 h)]

/-- A write leaves the other documents alone. -/
theorem find?_accept_of_ne {c : Collection} {uri k : String} {e : Entry} (h : k ≠ uri) :
    (c.accept uri e).entries.find? k = c.entries.find? k := by
  unfold accept
  split
  · rfl
  · exact Table.find?_insert_of_ne h

/-- After a write the entry is the written one, or the write was ignored. -/
theorem find?_accept_self_cases (c : Collection) (uri : String) (e : Entry) :
    (c.accept uri e).entries.find? uri = some e ∨
      (c.accept uri e).entries.find? uri = c.entries.find? uri := by
  unfold accept
  split
  · exact .inr rfl
  · exact .inl (Table.find?_insert_self ..)

/-- The document is at least as new as its entry. -/
def IsCurrent (c : Collection) (d : Document) : Prop :=
  ∀ e v, c.entries.find? d.uri = some e → e.version = some v → v ≤ d.version

theorem isStale_eq_false {c : Collection} {d : Document} (h : c.IsCurrent d) (o : Lint.Outcome) :
    c.isStale d.uri (d.entry o) = false := by
  unfold isStale versionOf Document.entry
  cases hfind : c.entries.find? d.uri with
  | none => rfl
  | some e =>
      cases hversion : e.version with
      | none => simp [hversion]
      | some v =>
          have hle := h e v hfind hversion
          simpa [hversion] using hle

theorem find?_accept_self {c : Collection} {d : Document} (h : c.IsCurrent d) (o : Lint.Outcome) :
    (c.accept d.uri (d.entry o)).entries.find? d.uri = some (d.entry o) := by
  rw [accept, isStale_eq_false h]
  exact Table.find?_insert_self ..

/-- Writing an entry that is there already changes nothing. -/
theorem accept_of_find? {c : Collection} {uri : String} {e : Entry}
    (h : c.entries.find? uri = some e) : c.accept uri e = c := by
  unfold accept
  split
  · rfl
  · rw [Table.insert_of_find? h]

theorem keys_accept_of_mem {c : Collection} {uri : String} (e : Entry) (h : uri ∈ c.entries.keys) :
    (c.accept uri e).entries.keys = c.entries.keys := by
  unfold accept
  split
  · rfl
  · exact Table.keys_insert_of_mem h

theorem keys_accept_of_not_mem {c : Collection} {uri : String} (e : Entry)
    (h : uri ∉ c.entries.keys) : (c.accept uri e).entries.keys = c.entries.keys ++ [uri] := by
  have hstale : c.isStale uri e = false := by
    rw [isStale, versionOf, Table.find?_eq_none_iff.2 h]
  rw [accept, hstale]
  exact Table.keys_insert_of_not_mem h

/-! ### Many documents -/

/-- Scans documents one after another into a collection, until a scan fails. -/
def rescan (scan : Document → Except Fault Lint.Outcome) :
    List Document → Collection → Except Fault Unit × Collection
  | [], c => (.ok (), c)
  | d :: ds, c =>
      if d.isEdl then
        match scan d with
        | .ok o => rescan scan ds (c.accept d.uri (d.entry o))
        | .error f => (.error f, c)
      else rescan scan ds c

variable {scan : Document → Except Fault Lint.Outcome}

theorem rescan_singleton_of_ok {d : Document} {o : Lint.Outcome} (hedl : d.isEdl = true)
    (hscan : scan d = .ok o) (c : Collection) :
    rescan scan [d] c = (.ok (), c.accept d.uri (d.entry o)) := by
  rw [rescan, if_pos hedl, hscan]
  rfl

theorem rescan_singleton_of_error {d : Document} {f : Fault} (hedl : d.isEdl = true)
    (hscan : scan d = .error f) (c : Collection) : rescan scan [d] c = (.error f, c) := by
  rw [rescan, if_pos hedl, hscan]

theorem rescan_singleton_of_not_edl {d : Document} (hedl : ¬d.isEdl = true) (c : Collection) :
    rescan scan [d] c = (.ok (), c) := by
  rw [rescan, if_neg hedl]
  rfl

/-- Scanning touches neither the name, nor the observers, nor the life of a collection. -/
theorem rescan_frame (ds : List Document) (c : Collection) :
    (rescan scan ds c).2.name = c.name ∧ (rescan scan ds c).2.emitter = c.emitter ∧
      (rescan scan ds c).2.disposed = c.disposed := by
  fun_induction rescan scan ds c with
  | case1 c => exact ⟨rfl, rfl, rfl⟩
  | case2 d ds c _ o _ ih => simpa using ih
  | case3 d ds c _ f _ => exact ⟨rfl, rfl, rfl⟩
  | case4 d ds c _ ih => exact ih

/-- Scanning ends with the fault of the first document that cannot be scanned. -/
theorem rescan_eq_error_iff {ds : List Document} {c : Collection} {f : Fault} :
    (rescan scan ds c).1 = .error f ↔ FirstFault scan ds f := by
  fun_induction rescan scan ds c with
  | case1 c =>
      constructor
      · intro h
        cases h
      · rintro ⟨front, d, back, hds, -⟩
        simp at hds
  | case2 d ds c hedl o hscan ih => rw [ih, firstFault_cons_of_ok hscan]
  | case3 d ds c hedl g hscan =>
      rw [firstFault_cons_of_error hedl hscan]
      constructor
      · exact fun h => (Except.error.inj h).symm
      · rintro rfl
        rfl
  | case4 d ds c hedl ih => rw [ih, firstFault_cons_of_not_edl hedl]

/-- The entry of a document is the one from before, or that of a complete scan. -/
theorem find?_rescan_cases (ds : List Document) (c : Collection) {uri : String} {e : Entry}
    (h : (rescan scan ds c).2.entries.find? uri = some e) :
    c.entries.find? uri = some e ∨
      ∃ d ∈ ds, d.uri = uri ∧ d.isEdl = true ∧ ∃ o, scan d = .ok o ∧ e = d.entry o := by
  fun_induction rescan scan ds c with
  | case1 c => exact .inl h
  | case2 d ds c hedl o hscan ih =>
      rcases ih h with hbefore | ⟨d', hmem, hd'⟩
      · by_cases huri : uri = d.uri
        · subst huri
          rcases find?_accept_self_cases c d.uri (d.entry o) with hnew | hold
          · rw [hbefore] at hnew
            exact .inr ⟨d, List.mem_cons_self .., rfl, hedl, o, hscan, Option.some.inj hnew⟩
          · exact .inl (hold ▸ hbefore)
        · rw [find?_accept_of_ne huri] at hbefore
          exact .inl hbefore
      · exact .inr ⟨d', List.mem_cons_of_mem _ hmem, hd'⟩
  | case3 d ds c _ f _ => exact .inl h
  | case4 d ds c _ ih =>
      rcases ih h with hbefore | ⟨d', hmem, hd'⟩
      · exact .inl hbefore
      · exact .inr ⟨d', List.mem_cons_of_mem _ hmem, hd'⟩

/-- Scanning takes no entry away. -/
theorem find?_rescan_isSome (ds : List Document) (c : Collection) {uri : String} {e : Entry}
    (h : c.entries.find? uri = some e) :
    ∃ e', (rescan scan ds c).2.entries.find? uri = some e' := by
  fun_induction rescan scan ds c generalizing e with
  | case1 c => exact ⟨e, h⟩
  | case2 d ds c _ o _ ih =>
      by_cases huri : uri = d.uri
      · subst huri
        rcases find?_accept_self_cases c d.uri (d.entry o) with hnew | hold
        · exact ih hnew
        · exact ih (hold.trans h)
      · exact ih ((find?_accept_of_ne huri).trans h)
  | case3 d ds c _ f _ => exact ⟨e, h⟩
  | case4 d ds c _ ih => exact ih h

/-- Documents that are not scanned keep what they have. -/
theorem find?_rescan_of_not_mem (ds : List Document) (c : Collection) {uri : String}
    (h : uri ∉ ds.map Document.uri) :
    (rescan scan ds c).2.entries.find? uri = c.entries.find? uri := by
  fun_induction rescan scan ds c with
  | case1 c => rfl
  | case2 d ds c _ o _ ih =>
      rw [List.map_cons, List.mem_cons, not_or] at h
      rw [ih h.2, find?_accept_of_ne h.1]
  | case3 d ds c _ f _ => rfl
  | case4 d ds c _ ih =>
      rw [List.map_cons, List.mem_cons, not_or] at h
      exact ih h.2

/-- When no scan fails and no write is stale, every document ends with the entry of its scan. -/
theorem rescan_of_scans (ds : List Document) (c : Collection)
    (hdistinct : (ds.map Document.uri).Nodup)
    (hscan : ∀ d ∈ ds, d.isEdl = true → ∃ o, scan d = .ok o)
    (hcurrent : ∀ d ∈ ds, d.isEdl = true → c.IsCurrent d) :
    (rescan scan ds c).1 = .ok () ∧
      ∀ d ∈ ds, d.isEdl = true →
        ∃ o, scan d = .ok o ∧ (rescan scan ds c).2.entries.find? d.uri = some (d.entry o) := by
  fun_induction rescan scan ds c with
  | case1 c => exact ⟨rfl, by simp⟩
  | case2 d ds c hedl o ho ih =>
      rw [List.map_cons, List.nodup_cons] at hdistinct
      obtain ⟨hnew, hrest⟩ := hdistinct
      -- the write for `d` concerns none of the other documents
      have hne : ∀ d' ∈ ds, d'.uri ≠ d.uri := fun d' hmem h => hnew (List.mem_map.2 ⟨d', hmem, h⟩)
      have hcurrent' : ∀ d' ∈ ds, d'.isEdl = true → (c.accept d.uri (d.entry o)).IsCurrent d' := by
        intro d' hmem hedl' e v he hv
        rw [find?_accept_of_ne (hne d' hmem)] at he
        exact hcurrent d' (List.mem_cons_of_mem _ hmem) hedl' e v he hv
      have hscan' := fun d' hmem => hscan d' (List.mem_cons_of_mem d hmem)
      obtain ⟨hok, hall⟩ := ih hrest hscan' hcurrent'
      refine ⟨hok, fun d' hmem hedl' => ?_⟩
      rcases List.mem_cons.1 hmem with rfl | hmem
      · refine ⟨o, ho, ?_⟩
        rw [find?_rescan_of_not_mem ds _ hnew]
        exact find?_accept_self (hcurrent d' (List.mem_cons_self ..) hedl) o
      · exact hall d' hmem hedl'
  | case3 d ds c hedl f hf =>
      obtain ⟨o, ho⟩ := hscan d (List.mem_cons_self ..) hedl
      rw [hf] at ho
      cases ho
  | case4 d ds c hedl ih =>
      rw [List.map_cons, List.nodup_cons] at hdistinct
      obtain ⟨hok, hall⟩ := ih hdistinct.2 (fun d' hmem => hscan d' (List.mem_cons_of_mem _ hmem))
        (fun d' hmem => hcurrent d' (List.mem_cons_of_mem _ hmem))
      refine ⟨hok, fun d' hmem hedl' => ?_⟩
      rcases List.mem_cons.1 hmem with rfl | hmem
      · exact absurd hedl' hedl
      · exact hall d' hmem hedl'

/-! ### The order of the entries -/

/-- Documents that have entries keep their places. -/
theorem keys_rescan_of_mem (ds : List Document) (c : Collection)
    (h : ∀ d ∈ ds, d.isEdl = true → d.uri ∈ c.entries.keys) :
    (rescan scan ds c).2.entries.keys = c.entries.keys := by
  fun_induction rescan scan ds c with
  | case1 c => rfl
  | case2 d ds c hedl o _ ih =>
      have hkeys := keys_accept_of_mem (d.entry o) (h d (List.mem_cons_self ..) hedl)
      rw [ih, hkeys]
      intro d' hmem hedl'
      rw [hkeys]
      exact h d' (List.mem_cons_of_mem _ hmem) hedl'
  | case3 d ds c _ f _ => rfl
  | case4 d ds c _ ih => exact ih fun d' hmem => h d' (List.mem_cons_of_mem _ hmem)

/-- Documents without entries are added at the end, in their order. -/
theorem keys_rescan_of_fresh (ds : List Document) (c : Collection)
    (hdistinct : (ds.map Document.uri).Nodup) (hok : (rescan scan ds c).1 = .ok ())
    (h : ∀ d ∈ ds, d.uri ∉ c.entries.keys) :
    (rescan scan ds c).2.entries.keys =
      c.entries.keys ++ (ds.filter Document.isEdl).map Document.uri := by
  fun_induction rescan scan ds c with
  | case1 c => simp
  | case2 d ds c hedl o _ ih =>
      rw [List.map_cons, List.nodup_cons] at hdistinct
      have hkeys := keys_accept_of_not_mem (d.entry o) (h d (List.mem_cons_self ..))
      rw [ih hdistinct.2 hok, hkeys, List.filter_cons_of_pos hedl, List.map_cons,
        List.append_assoc]
      · rfl
      · intro d' hmem
        rw [hkeys, List.mem_append, List.mem_singleton, not_or]
        exact ⟨h d' (List.mem_cons_of_mem _ hmem),
          fun he => hdistinct.1 (List.mem_map.2 ⟨d', hmem, he⟩)⟩
  | case3 d ds c _ f _ => cases hok
  | case4 d ds c hedl ih =>
      rw [List.map_cons, List.nodup_cons] at hdistinct
      rw [ih hdistinct.2 hok fun d' hmem => h d' (List.mem_cons_of_mem _ hmem),
        List.filter_cons_of_neg hedl]

end Collection

end Edl
