/-
What linting files reports about each of them.

The names are gone through in order, and each leaves one remark: that its file is unreadable, or
what the log says about it.  The findings of the readable ones are filed under the name as given,
so that naming a file again writes the same findings in the same place.  After any number of names
the results are therefore the findings of the distinct readable names in the order in which they
first occur, each as if it had been the only one.  A name with the null character in it ends the run
there: of the names before it only the remarks are printed.

Main definitions:

* `Edl.Lint.found` — the findings of the built-in rules in a text;
* `Edl.Cli.foundIn`, `Edl.Cli.remarkOn` — the findings in a file, and the remark on it;
* `Edl.Cli.shown` — the distinct readable names in order of first occurrence;
* `Edl.Cli.Findings.Covers` — findings and remarks are those on the given names.

Main results:

* `Edl.Lint.run_default` — the built-in rules never fail;
* `Edl.Cli.lintFiles_of_names` — the findings by file and the remarks;
* `Edl.Cli.Findings.Covers.status_eq_two_iff`, `Edl.Cli.Findings.Covers.status_eq_one_iff` — what
  the exit status says;
* `Edl.Cli.lint_of_null` — what is left of a run that a name ends;
* `Edl.Cli.lint_reports_each_file` — **the exit status, the report and the complaints of a run**;
* `Edl.Cli.null_in_name_spoils_the_run` — a name with the null character costs the whole report.
-/

import Edl.Cli.Lint
import Edl.Proofs.Placement
import Edl.Proofs.Table

set_option relaxedAutoImplicit false
set_option autoImplicit false

namespace Edl

/-! ### Scanning with the built-in rules -/

namespace Lint

/-- A scan with the built-in rules goes through all lines, and each finding has a severity that is
counted. -/
theorem exists_run_of_linting {settings : Config.Settings} (h : settings.linting = true)
    (text : String) :
    ∃ ds, run text settings = .ok ⟨true, (Text.splitLines text).length, ds⟩ ∧
      ∀ d ∈ ds, d.severity.Counted := by
  obtain ⟨ds, hscan, hds, -⟩ := scanLines_of_tidy tidy_defaultRules nodup_code_defaultRules 0
    (Text.splitLines text)
  refine ⟨ds, ?_, fun d hd => (hds d hd).2.1⟩
  rw [run_of_linting h checkRules_defaultRules, hscan]
  rfl

theorem run_ne_error (text : String) (settings : Config.Settings) (fault : Fault) :
    run text settings ≠ .error fault := by
  cases hlinting : settings.linting with
  | false => simp [run_of_not_linting hlinting]
  | true =>
      obtain ⟨ds, hrun, -⟩ := exists_run_of_linting hlinting text
      simp [hrun]

/-- The findings of the built-in rules in a text, which always are found without a fault. -/
def found (text : String) (settings : Config.Settings) : List Diagnostic :=
  match h : run text settings with
  | .ok o => o.diagnostics
  | .error fault => absurd h (run_ne_error text settings fault)

theorem found_of_run {text : String} {settings : Config.Settings} {o : Outcome}
    (h : run text settings = .ok o) : found text settings = o.diagnostics := by
  unfold found
  split
  · next o' h' => rw [Except.ok.inj (h'.symm.trans h)]
  · next fault h' => exact absurd h' (run_ne_error text settings fault)

theorem found_of_not_linting {settings : Config.Settings} (h : settings.linting = false)
    (text : String) : found text settings = [] :=
  found_of_run (run_of_not_linting h defaultRules text)

/-- Of the settings, only the switch for linting matters. -/
theorem found_of_linting {settings : Config.Settings} (h : settings.linting = true)
    (text : String) : found text settings = found text {} := by
  have hsame : run text settings = run text {} := by
    rw [run_of_linting h checkRules_defaultRules, run_of_linting rfl checkRules_defaultRules]
  have hdefault : ({} : Config.Settings).linting = true := rfl
  obtain ⟨ds, hrun, -⟩ := exists_run_of_linting hdefault text
  rw [found_of_run hrun, found_of_run (hsame.trans hrun)]

theorem found_congr {settings settings' : Config.Settings}
    (h : settings'.linting = settings.linting) (text : String) :
    found text settings' = found text settings := by
  cases hlinting : settings.linting with
  | false => rw [found_of_not_linting hlinting, found_of_not_linting (h.trans hlinting)]
  | true => rw [found_of_linting hlinting, found_of_linting (h.trans hlinting)]

/-- Scanning with the built-in rules never fails. -/
theorem run_default (text : String) (settings : Config.Settings) :
    run text settings = .ok ⟨settings.linting,
      if settings.linting then (Text.splitLines text).length else 0, found text settings⟩ := by
  cases hlinting : settings.linting with
  | false =>
      rw [found_of_not_linting hlinting, run_of_not_linting hlinting]
      rfl
  | true =>
      obtain ⟨ds, hrun, -⟩ := exists_run_of_linting hlinting text
      rw [found_of_run hrun, hrun]
      rfl

theorem counted_found {text : String} {settings : Config.Settings} :
    ∀ d ∈ found text settings, d.severity.Counted := by
  cases hlinting : settings.linting with
  | false =>
      rw [found_of_not_linting hlinting]
      exact List.forall_mem_nil _
  | true =>
      obtain ⟨ds, hrun, hcounted⟩ := exists_run_of_linting hlinting text
      rwa [found_of_run hrun]

theorem validate_default (uri text : String) (settings : Config.Settings) :
    validate uri text settings = .ok (found text settings,
      if settings.linting then
        .validated uri (Text.splitLines text).length (found text settings).length
      else .skipped uri) := by
  rw [validate, run_default]
  cases hlinting : settings.linting <;> rfl

end Lint

namespace Cli

variable {reader : Reader} {settings : Config.Settings}

/-! ### One file -/

/-- Whether the file with the given name can be read and decoded. -/
def isReadable (reader : Reader) (name : String) : Bool :=
  match readText reader name with
  | .error _ => false
  | .ok _ => true

/-- The findings in the file with the given name; there are none in one that cannot be read. -/
def foundIn (reader : Reader) (settings : Config.Settings) (name : String) : List Diagnostic :=
  match readText reader name with
  | .error _ => []
  | .ok (_, text) => Lint.found text settings

/-- The findings in the file with the given name, one on a line. -/
def linesOn (reader : Reader) (settings : Config.Settings) (name : String) : List String :=
  (foundIn reader settings name).map (·.render (some name))

/-- What is said on the side about the file with the given name. -/
def remarkOn (reader : Reader) (settings : Config.Settings) (name : String) : Remark :=
  match readText reader name with
  | .error why => .unreadable name why
  | .ok (uri, text) =>
      .record (if settings.linting then
        .validated uri (Text.splitLines text).length (Lint.found text settings).length
      else .skipped uri)

/-- A file is unreadable if the system cannot give its octets, or if these are no text. -/
theorem isReadable_eq_false_iff {name : String} :
    isReadable reader name = false ↔
      (∃ failure, reader (Files.Name.ofText name) = .error failure) ∨
        ∃ uri octets fault, reader (Files.Name.ofText name) = .ok (uri, octets) ∧
          Text.Utf8.decode octets = .error fault := by
  unfold isReadable readText
  cases hread : reader (Files.Name.ofText name) with
  | error failure => simp
  | ok file =>
      obtain ⟨uri, octets⟩ := file
      cases hdecode : Text.Utf8.decode octets with
      | error fault =>
          rw [iff_true_right (Or.inr ⟨uri, octets, fault, rfl, hdecode⟩)]
          simp [hdecode]
      | ok text => simp [hdecode]

theorem hasErrors_found (text : String) :
    hasErrors (Lint.found text settings) = true ↔
      settings.linting = true ∧ hasErrors (Lint.found text {}) = true := by
  cases hlinting : settings.linting with
  | false => simp [Lint.found_of_not_linting hlinting, hasErrors]
  | true => simp [Lint.found_of_linting hlinting]

/-- There are errors in a file if it can be read, linting is on, and a scan of its text finds an
error. -/
theorem hasErrors_foundIn {name : String} :
    hasErrors (foundIn reader settings name) = true ↔
      settings.linting = true ∧ ∃ uri octets text o,
        reader (Files.Name.ofText name) = .ok (uri, octets) ∧
          Text.Utf8.decode octets = .ok text ∧
          Lint.run (String.ofList (Text.foldLineEnds text)) = .ok o ∧
          ∃ d ∈ o.diagnostics, d.severity = .error := by
  unfold foundIn readText
  cases hread : reader (Files.Name.ofText name) with
  | error failure => simp [hasErrors]
  | ok file =>
      obtain ⟨uri, octets⟩ := file
      cases hdecode : Text.Utf8.decode octets with
      | error fault => simp [hdecode, hasErrors]
      | ok text =>
          simp only [hdecode]
          rw [hasErrors_found]
          refine and_congr_right fun _ => ⟨fun h => ?_, ?_⟩
          · exact ⟨uri, octets, text, _, rfl, hdecode, Lint.run_default _ _, by
              simpa [hasErrors] using h⟩
          · rintro ⟨_, _, text', o, hfile, htext, hrun, d, hd, herror⟩
            obtain ⟨rfl, rfl⟩ := Prod.mk.inj (Except.ok.inj hfile)
            obtain rfl := Except.ok.inj (htext.symm.trans hdecode)
            rw [Lint.found_of_run hrun]
            exact List.any_eq_true.2 ⟨d, hd, decide_eq_true herror⟩

theorem isUnreadable_remarkOn (name : String) :
    (remarkOn reader settings name).isUnreadable = !isReadable reader name := by
  unfold remarkOn isReadable
  cases readText reader name <;> rfl

/-! ### One more name -/

theorem isFileName_iff {name : String} : isFileName name = true ↔ '\x00' ∉ name.toList := by
  simp [isFileName]

/-- Each name of a file leaves a remark, and a readable one has its findings filed. -/
theorem add_of_name (f : Findings) {name : String} (hname : '\x00' ∉ name.toList) :
    f.add reader settings name = .ok
      { results :=
          if isReadable reader name then f.results.insert name (foundIn reader settings name)
          else f.results
        remarks := f.remarks ++ [remarkOn reader settings name] } := by
  unfold Findings.add isReadable foundIn remarkOn
  rw [isFileName_iff.2 hname]
  cases readText reader name with
  | error why => rfl
  | ok file =>
      obtain ⟨uri, text⟩ := file
      simp only [Lint.validate_default]
      rfl

theorem add_of_null (f : Findings) {name : String} (hname : '\x00' ∈ name.toList) :
    f.add reader settings name = .error .nullInName := by
  have hnot : isFileName name = false := by simpa [isFileName] using hname
  unfold Findings.add
  rw [hnot]
  rfl

/-- The distinct readable names, in order of first occurrence. -/
def shown (reader : Reader) (names : List String) : List String :=
  (names.filter (isReadable reader)).eraseDups

theorem mem_shown {names : List String} {name : String} :
    name ∈ shown reader names ↔ name ∈ names ∧ isReadable reader name = true := by
  rw [shown, List.mem_eraseDups, List.mem_filter]

theorem shown_concat_of_unreadable (names : List String) {name : String}
    (h : isReadable reader name = false) : shown reader (names ++ [name]) = shown reader names := by
  simp [shown, List.filter_append, h]

/-- A readable name is shown last, unless it is there already. -/
theorem shown_concat_of_readable (names : List String) {name : String}
    (h : isReadable reader name = true) :
    shown reader (names ++ [name]) =
      if name ∈ shown reader names then shown reader names else shown reader names ++ [name] := by
  have hmem : name ∈ shown reader names ↔ name ∈ names := by
    rw [mem_shown, and_iff_left h]
  rw [shown, List.filter_append, List.eraseDups_append, ← shown]
  by_cases hnames : name ∈ names
  · simp [h, hmem, hnames, List.removeAll]
  · simp [h, hmem, hnames, List.removeAll, List.eraseDups_cons]

/-- The findings of the readable names, as they are filed. -/
def filed (reader : Reader) (settings : Config.Settings) (names : List String) :
    List (String × List Diagnostic) :=
  (shown reader names).map fun name => (name, foundIn reader settings name)

theorem map_fst_filed (names : List String) :
    (filed reader settings names).map Prod.fst = shown reader names := by
  simp [filed, List.map_map, Function.comp_def]

/-- Filing the findings of a readable name, whether or not it is there already. -/
theorem entries_insert_filed {t : Table (List Diagnostic)} {names : List String}
    (ht : t.entries = filed reader settings names) {name : String}
    (h : isReadable reader name = true) :
    (t.insert name (foundIn reader settings name)).entries =
      filed reader settings (names ++ [name]) := by
  have hkeys : t.keys = shown reader names := by
    rw [Table.keys, ht, map_fst_filed]
  by_cases hshown : name ∈ shown reader names
  · have hfind : t.find? name = some (foundIn reader settings name) := by
      rw [Table.find?_eq_some_iff, ht]
      exact List.mem_map.2 ⟨name, hshown, rfl⟩
    rw [Table.insert_of_find? hfind, ht, filed, filed, shown_concat_of_readable names h,
      if_pos hshown]
  · have hnew : name ∉ t.keys := by rwa [hkeys]
    rw [Table.entries_insert, Table.put_of_not_mem _ hnew, ht, filed, filed,
      shown_concat_of_readable names h, if_neg hshown, List.map_append, List.map_singleton]

/-- The findings are those in the files with the given names, and there is one remark on each name,
in order. -/
structure Findings.Covers (reader : Reader) (settings : Config.Settings) (f : Findings)
    (names : List String) : Prop where
  entries_eq : f.results.entries = filed reader settings names
  remarks_eq : f.remarks = names.map (remarkOn reader settings)

/-- One more name is covered. -/
theorem Findings.Covers.add {f : Findings} {names : List String}
    (hf : f.Covers reader settings names) {name : String} (hname : '\x00' ∉ name.toList) :
    ∃ f', f.add reader settings name = .ok f' ∧ f'.Covers reader settings (names ++ [name]) := by
  refine ⟨_, add_of_name f hname, ?_, ?_⟩
  · cases h : isReadable reader name with
    | false =>
        rw [filed, shown_concat_of_unreadable names h]
        exact hf.entries_eq
    | true => exact entries_insert_filed hf.entries_eq h
  · rw [hf.remarks_eq, List.map_append, List.map_singleton]

/-! ### All names -/

/-- Names of files are gone through to the end. -/
theorem lintFrom_of_names {names : List String} (hnames : ∀ name ∈ names, '\x00' ∉ name.toList)
    {f : Findings} {seen : List String} (hf : f.Covers reader settings seen) :
    ∃ f', lintFrom reader settings f names = (.ok (), f') ∧
      f'.Covers reader settings (seen ++ names) := by
  -- the names that are still to come are added to those that are covered
  induction names generalizing f seen with
  | nil => exact ⟨f, rfl, by rwa [List.append_nil]⟩
  | cons name names ih =>
      rw [List.forall_mem_cons] at hnames
      obtain ⟨f', hadd, hf'⟩ := hf.add hnames.1
      obtain ⟨f'', hrest, hf''⟩ := ih hnames.2 hf'
      refine ⟨f'', ?_, by rwa [List.append_assoc] at hf''⟩
      rw [lintFrom, hadd]
      exact hrest

theorem lintFiles_of_names (reader : Reader) (settings : Config.Settings) {names : List String}
    (hnames : ∀ name ∈ names, '\x00' ∉ name.toList) :
    ∃ f, lintFiles reader settings names = (.ok (), f) ∧ f.Covers reader settings names := by
  have hnone : ({} : Findings).Covers reader settings [] := ⟨rfl, rfl⟩
  exact lintFrom_of_names hnames hnone

theorem lintFrom_append {f f' : Findings} {front back : List String}
    (hfront : lintFrom reader settings f front = (.ok (), f')) :
    lintFrom reader settings f (front ++ back) = lintFrom reader settings f' back := by
  induction front generalizing f with
  | nil =>
      obtain ⟨-, rfl⟩ := Prod.mk.inj hfront
      rfl
  | cons name front ih =>
      rw [lintFrom] at hfront
      rw [List.cons_append, lintFrom]
      cases hadd : f.add reader settings name with
      | error fault => cases (Prod.mk.inj (by simpa only [hadd] using hfront)).1
      | ok g =>
          rw [hadd] at hfront
          exact ih hfront

/-- A name with the null character in it is as far as it goes. -/
theorem lintFiles_of_null {front back : List String} {bad : String} (hbad : '\x00' ∈ bad.toList)
    {f : Findings} (hfront : lintFiles reader settings front = (.ok (), f)) :
    lintFiles reader settings (front ++ bad :: back) = (.error .nullInName, f) := by
  rw [lintFiles, lintFrom_append hfront, lintFrom, add_of_null f hbad]

/-! ### The exit status -/

section

variable {f : Findings} {names : List String}

namespace Findings.Covers

theorem values_eq (hf : f.Covers reader settings names) :
    f.results.values = (shown reader names).map (foundIn reader settings) := by
  rw [Table.values, hf.entries_eq, filed, List.map_map]
  rfl

theorem any_isUnreadable_iff (hf : f.Covers reader settings names) :
    f.remarks.any Remark.isUnreadable = true ↔ ∃ name ∈ names, isReadable reader name = false := by
  simp [hf.remarks_eq, isUnreadable_remarkOn]

theorem any_hasErrors_iff (hf : f.Covers reader settings names) :
    f.results.values.any hasErrors = true ↔
      ∃ name ∈ names, hasErrors (foundIn reader settings name) = true := by
  rw [hf.values_eq]
  simp only [List.any_map, List.any_eq_true, mem_shown, Function.comp_apply]
  constructor
  · rintro ⟨name, ⟨hname, -⟩, herrors⟩
    exact ⟨name, hname, herrors⟩
  · rintro ⟨name, hname, herrors⟩
    refine ⟨name, ⟨hname, ?_⟩, herrors⟩
    -- nothing is found in a file that cannot be read
    unfold foundIn at herrors
    unfold isReadable
    cases hread : readText reader name with
    | error why => simp [hread, hasErrors] at herrors
    | ok file => rfl

theorem status_eq_two_iff (hf : f.Covers reader settings names) :
    f.status = 2 ↔ ∃ name ∈ names, isReadable reader name = false := by
  rw [← hf.any_isUnreadable_iff, Findings.status]
  cases f.remarks.any Remark.isUnreadable with
  | true => simp
  | false => cases f.results.values.any hasErrors <;> simp

theorem status_eq_one_iff (hf : f.Covers reader settings names) :
    f.status = 1 ↔ (¬∃ name ∈ names, isReadable reader name = false) ∧
      ∃ name ∈ names, hasErrors (foundIn reader settings name) = true := by
  rw [← hf.any_isUnreadable_iff, ← hf.any_hasErrors_iff, Findings.status]
  cases f.remarks.any Remark.isUnreadable with
  | true => simp
  | false => cases f.results.values.any hasErrors <;> simp

end Findings.Covers

end

theorem status_le_two (f : Findings) : f.status ≤ 2 := by
  unfold Findings.status
  split
  · exact Nat.le_refl 2
  · split <;> decide

/-! ### The report -/

/-- How a report ends: how many findings there are, which is how many there are of each severity,
taken together. -/
def closing (ds : List Diagnostic) : List String :=
  if ds.isEmpty then ["No issues found"]
  else
    ["", toString ((tally ds).errors + (tally ds).warnings + (tally ds).information) ++
      " issues found (" ++ toString (tally ds).errors ++ " errors, " ++
      toString (tally ds).warnings ++ " warnings, " ++ toString (tally ds).information ++
      " information)"]

theorem counted_foundIn {name : String} :
    ∀ d ∈ foundIn reader settings name, d.severity.Counted := by
  unfold foundIn
  cases readText reader name with
  | error why => simp
  | ok file => exact Lint.counted_found

/-- The report goes through the files that are shown, and counts all their findings. -/
theorem Findings.Covers.textReport_eq {f : Findings} {names : List String}
    (hf : f.Covers reader settings names) :
    textReport f.results =
      lines ((shown reader names).flatMap (linesOn reader settings)) ++
        lines (closing ((shown reader names).flatMap (foundIn reader settings))) := by
  have hcounted : ∀ d ∈ (shown reader names).flatMap (foundIn reader settings),
      d.severity.Counted := by
    intro d hd
    obtain ⟨name, -, hd⟩ := List.mem_flatMap.1 hd
    exact counted_foundIn d hd
  unfold textReport closing
  rw [tally_total hcounted, hf.values_eq, hf.entries_eq, filed, List.flatMap_map,
    ← List.flatMap_def, apply_ite lines]
  rfl

/-- The files that cannot be read leave no trace among the findings. -/
theorem Findings.Covers.results_eq_of_filter {f f' : Findings} {names : List String}
    (hf : f.Covers reader settings names)
    (hf' : f'.Covers reader settings (names.filter (isReadable reader))) :
    f'.results = f.results := by
  refine Table.ext_entries ?_
  rw [hf.entries_eq, hf'.entries_eq, filed, filed, shown, shown, List.filter_filter]
  simp only [Bool.and_self]

/-! ### The complaints -/

/-- The complaint about a file that cannot be read. -/
def complaint? (reader : Reader) (name : String) : Option String :=
  match readText reader name with
  | .error why => some (name ++ ": cannot read file: " ++ why.message)
  | .ok _ => none

/-- The line for the remark on a file: the complaint about it, or a record that is printed only at
the most talkative level. -/
theorem line?_remarkOn (reader : Reader) (settings : Config.Settings) (level : Log.Level)
    (name : String) :
    ∃ r : Log.Record, r.level = .debug ∧
      (remarkOn reader settings name).line? level =
        (complaint? reader name).or (if level = .debug then some r.render else none) := by
  unfold remarkOn complaint?
  cases readText reader name with
  | error why => exact ⟨.commandStarted "", rfl, rfl⟩
  | ok file =>
      obtain ⟨uri, text⟩ := file
      refine ⟨if settings.linting then
        .validated uri (Text.splitLines text).length (Lint.found text settings).length
        else .skipped uri, ?_, ?_⟩
      · cases settings.linting <;> rfl
      · cases settings.linting <;> cases level <;> rfl

/-- Besides the complaints, there is nothing on the side but what the log says. -/
theorem Findings.Covers.lines_remarks {f : Findings} {names : List String}
    (hf : f.Covers reader settings names) (level : Log.Level) :
    ∃ logged : String → Log.Record, (∀ name, (logged name).level = .debug) ∧
      (.record (.commandStarted "lint") :: f.remarks).filterMap (Remark.line? level) =
        (if level = .debug then [(Log.Record.commandStarted "lint").render] else []) ++
          names.filterMap fun name => (complaint? reader name).or
            (if level = .debug then some (logged name).render else none) := by
  obtain ⟨logged, hlogged⟩ :=
    Classical.skolem.1 fun name => line?_remarkOn reader settings level name
  refine ⟨logged, fun name => (hlogged name).1, ?_⟩
  have hlines : Remark.line? level ∘ remarkOn reader settings =
      fun name => (complaint? reader name).or
        (if level = .debug then some (logged name).render else none) :=
    funext fun name => (hlogged name).2
  rw [hf.remarks_eq, List.filterMap_cons, List.filterMap_map, hlines]
  cases level <;> rfl

/-! ### A run -/

/-- A run on names of files comes to its end. -/
theorem lint_of_names (reader : Reader) (level : Log.Level) (options : LintOptions)
    (hnames : ∀ name ∈ options.files, '\x00' ∉ name.toList) :
    ∃ f : Findings, f.Covers reader { linting := options.linting } options.files ∧
      lint reader level options =
        { exit := .ok f.status
          stdout := report options.format f.results
          stderr := lines ((.record (.commandStarted "lint") :: f.remarks).filterMap
            (Remark.line? level)) } := by
  obtain ⟨f, hlint, hf⟩ := lintFiles_of_names reader { linting := options.linting } hnames
  refine ⟨f, hf, ?_⟩
  unfold lint
  rw [hlint]
  rfl

/-- A run that a name ends has said what a run on the names before it says, and nothing else. -/
theorem lint_of_null (reader : Reader) (level : Log.Level) (options : LintOptions)
    {front : List String} (hfront : ∀ name ∈ front, '\x00' ∉ name.toList) {bad : String}
    (hbad : '\x00' ∈ bad.toList) {back : List String}
    (hfiles : options.files = front ++ bad :: back) :
    lint reader level options =
      { exit := .error .nullInName
        stderr := (lint reader level { options with files := front }).stderr } := by
  obtain ⟨f, hlint, -⟩ := lintFiles_of_names reader { linting := options.linting } hfront
  unfold lint
  rw [hfiles, lintFiles_of_null hbad hlint]
  dsimp only
  rw [hlint]
  rfl

theorem run_of_parse {words : List String} {level : Log.Level} {options : LintOptions}
    (hwords : parse words = .ok (.lint level options)) :
    run reader words = lint reader level options := by
  rw [run, hwords]

/-- What a run on a list of files is to leave.  The findings are those of the settings that the
options give. -/
structure Reports (reader : Reader) (level : Log.Level) (options : LintOptions)
    (outcome : Outcome) (status : Nat) : Prop where
  /-- The run ends with a status. -/
  exit_eq : outcome.exit = .ok status
  /-- The status is two if some file cannot be read or decoded. -/
  status_eq_two_iff : status = 2 ↔ ∃ name ∈ options.files,
    (∃ failure, reader (Files.Name.ofText name) = .error failure) ∨
      ∃ uri octets fault, reader (Files.Name.ofText name) = .ok (uri, octets) ∧
        Text.Utf8.decode octets = .error fault
  /-- It is otherwise one if linting is on and there is an error in some file. -/
  status_eq_one_iff : status = 1 ↔ status ≠ 2 ∧ options.linting = true ∧
    ∃ name ∈ options.files, ∃ uri octets text o,
      reader (Files.Name.ofText name) = .ok (uri, octets) ∧ Text.Utf8.decode octets = .ok text ∧
        Lint.run (String.ofList (Text.foldLineEnds text)) = .ok o ∧
        ∃ d ∈ o.diagnostics, d.severity = .error
  /-- It is otherwise zero. -/
  status_le_two : status ≤ 2
  /-- Neither the log, nor the format, nor the order and repetition of the names matter to it. -/
  exit_of_names : ∀ (level' : Log.Level) (options' : LintOptions),
    options'.linting = options.linting → (∀ name, name ∈ options'.files ↔ name ∈ options.files) →
      (lint reader level' options').exit = .ok status
  /-- The text report shows the distinct readable names in order of first occurrence. -/
  stdout_text : options.format = .text → outcome.stdout =
    lines ((shown reader options.files).flatMap (linesOn reader { linting := options.linting })) ++
      lines (closing ((shown reader options.files).flatMap
        (foundIn reader { linting := options.linting })))
  /-- It shows for each what a run on that file alone shows. -/
  stdout_alone : options.format = .text → ∀ name ∈ shown reader options.files,
    (lint reader level { options with files := [name] }).stdout =
      lines (linesOn reader { linting := options.linting } name) ++
        lines (closing (foundIn reader { linting := options.linting } name))
  /-- The files that cannot be read do not matter to it. -/
  stdout_readable : (lint reader level
    { options with files := options.files.filter (isReadable reader) }).stdout = outcome.stdout
  /-- There is one complaint for each occurrence of an unreadable name, in order. -/
  stderr_quiet : level ≠ .debug →
    outcome.stderr = lines (options.files.filterMap (complaint? reader))
  /-- So there is in a run that logs everything, with one record for each of the others. -/
  stderr_debug : level = .debug → ∃ logged : String → Log.Record,
    (∀ name, (logged name).level = .debug) ∧
      outcome.stderr = lines ((Log.Record.commandStarted "lint").render ::
        options.files.map fun name => (complaint? reader name).getD (logged name).render)

/-- The status of a run on one file that can be read. -/
theorem exit_lint_singleton (level : Log.Level) {options : LintOptions} {name uri text : String}
    (hfiles : options.files = [name]) (hname : '\x00' ∉ name.toList)
    (hread : readText reader name = .ok (uri, text)) :
    ∃ status, (lint reader level options).exit = .ok status ∧
      (status = 1 ↔ hasErrors (Lint.found text { linting := options.linting }) = true) := by
  obtain ⟨f, hf, hlint⟩ := lint_of_names reader level options (by simpa [hfiles])
  refine ⟨f.status, by rw [hlint], ?_⟩
  rw [hf.status_eq_one_iff, hfiles]
  simp [isReadable, foundIn, hread]

/-- The names alone, not their order or number, matter to the status. -/
theorem Findings.Covers.status_eq {settings' : Config.Settings} {f f' : Findings}
    {names names' : List String} (hf : f.Covers reader settings names)
    (hf' : f'.Covers reader settings' names') (hlinting : settings' = settings)
    (hnames : ∀ name, name ∈ names' ↔ name ∈ names) : f'.status = f.status := by
  have htwo : ∀ s s' : Nat, s ≤ 2 → s' ≤ 2 → (s' = 2 ↔ s = 2) → (s' = 1 ↔ s = 1) → s' = s := by
    omega
  refine htwo _ _ (status_le_two _) (status_le_two _) ?_ ?_
  · simp only [hf.status_eq_two_iff, hf'.status_eq_two_iff, hnames]
  · simp only [hf.status_eq_one_iff, hf'.status_eq_one_iff, hnames, hlinting]

theorem shown_singleton {name : String} (h : isReadable reader name = true) :
    shown reader [name] = [name] := by
  simp [shown, h, List.eraseDups_cons]

/-- A run on names of files reports as it should. -/
theorem reports_lint (reader : Reader) (level : Log.Level) {options : LintOptions}
    (hnames : ∀ name ∈ options.files, '\x00' ∉ name.toList) :
    ∃ status, Reports reader level options (lint reader level options) status := by
  obtain ⟨f, hf, hlint⟩ := lint_of_names reader level options hnames
  rw [hlint]
  exact ⟨f.status, {
    exit_eq := rfl
    status_eq_two_iff := by
      rw [hf.status_eq_two_iff]
      simp only [isReadable_eq_false_iff]
    status_eq_one_iff := by
      rw [hf.status_eq_one_iff, ← hf.status_eq_two_iff]
      refine and_congr_right fun _ => ?_
      simp only [hasErrors_foundIn]
      constructor
      · rintro ⟨name, hname, hlinting, herror⟩
        exact ⟨hlinting, name, hname, herror⟩
      · rintro ⟨hlinting, name, hname, herror⟩
        exact ⟨name, hname, hlinting, herror⟩
    status_le_two := status_le_two f
    exit_of_names := by
      intro level' options' hlinting hfiles
      obtain ⟨f', hf', hlint'⟩ := lint_of_names reader level' options'
        fun name hname => hnames name ((hfiles name).1 hname)
      rw [hlint', hf.status_eq hf' (by rw [hlinting]) hfiles]
    stdout_text := by
      intro htext
      rw [htext, report, hf.textReport_eq]
    stdout_alone := by
      intro htext name hname
      have hshown := mem_shown.1 hname
      obtain ⟨f', hf', hlint'⟩ := lint_of_names reader level { options with files := [name] }
        (by simpa using hnames name hshown.1)
      rw [hlint', htext, report, hf'.textReport_eq, shown_singleton hshown.2,
        List.flatMap_singleton, List.flatMap_singleton]
    stdout_readable := by
      obtain ⟨f', hf', hlint'⟩ := lint_of_names reader level
        { options with files := options.files.filter (isReadable reader) }
        fun name hname => hnames name (List.mem_filter.1 hname).1
      rw [hlint', hf.results_eq_of_filter hf']
    stderr_quiet := by
      intro hlevel
      obtain ⟨logged, -, hlines⟩ := hf.lines_remarks level
      rw [hlines]
      simp [hlevel]
    stderr_debug := by
      intro hlevel
      obtain ⟨logged, hlogged, hlines⟩ := hf.lines_remarks level
      refine ⟨logged, hlogged, ?_⟩
      rw [hlines]
      simp [hlevel] }⟩

/-- **A run reports on each file as it should**, if no name has the null character in it. -/
theorem lint_reports_each_file (reader : Reader) (words : List String) (level : Log.Level)
    (options : LintOptions) (hwords : parse words = .ok (.lint level options))
    (hnames : ∀ name ∈ options.files, '\x00' ∉ name.toList) :
    ∃ status, Reports reader level options (run reader words) status := by
  rw [run_of_parse hwords]
  exact reports_lint reader level hnames

/-- The reader that knows one file. -/
def Reader.single (name text : String) : Reader := fun n =>
  if n = Files.Name.ofText name then .ok (name, Text.Utf8.encode text.toList)
  else .error (.opening .missing)

theorem lint_reports_each_file_missing :
    parse ["lint", "a.edl", "b.edl", "a.edl"] =
        .ok (.lint .warning { files := ["a.edl", "b.edl", "a.edl"] }) ∧
      (∀ name ∈ ["a.edl", "b.edl", "a.edl"], '\x00' ∉ name.toList) ∧
      run (.single "a.edl" "event Bad \x7b") ["lint", "a.edl", "b.edl", "a.edl"] =
        { exit := .ok 2
          stdout := lines ["a.edl:1:11: error: Missing closing bracket [missing-bracket]",
            "a.edl:1:7: error: Event names should be lowercase with underscores " ++
              "[invalid-event-name]",
            "", "2 issues found (2 errors, 0 warnings, 0 information)"]
          stderr := lines
            ["b.edl: cannot read file: [Errno 2] No such file or directory: 'b.edl'"] } := by
  have hwords : parse ["lint", "a.edl", "b.edl", "a.edl"] =
      .ok (.lint .warning { files := ["a.edl", "b.edl", "a.edl"] }) := rfl
  have hnames : ∀ name ∈ ["a.edl", "b.edl", "a.edl"], '\x00' ∉ name.toList := by decide
  obtain ⟨status, hreports⟩ := lint_reports_each_file (.single "a.edl" "event Bad \x7b") _ _ _
    hwords hnames
  have hstatus : status = 2 :=
    hreports.status_eq_two_iff.2 ⟨"b.edl", by decide, .inl ⟨.opening .missing, rfl⟩⟩
  refine ⟨hwords, hnames, ?_⟩
  rw [Outcome.mk.injEq]
  refine ⟨?_, ?_, ?_⟩
  · rw [hreports.exit_eq, hstatus]
  · rw [hreports.stdout_text rfl]
    decide +kernel
  · rw [hreports.stderr_quiet (by decide)]
    decide +kernel

/-- A name with the null character in it costs the whole report: the run ends in a fault, and not
with the complaint that the file cannot be read.  The complaints about the names before it are all
that is printed. -/
theorem null_in_name_spoils_the_run :
    Reader.single "a.edl" "event Bad \x7b" (Files.Name.ofText "x\x00") =
        .error (.opening .missing) ∧
      run (.single "a.edl" "event Bad \x7b") ["lint", "a.edl", "x\x00"] =
        { exit := .error .nullInName } ∧
      run (.single "a.edl" "event Bad \x7b") ["lint", "b.edl", "x\x00", "c.edl"] =
        { exit := .error .nullInName
          stderr := lines
            ["b.edl: cannot read file: [Errno 2] No such file or directory: 'b.edl'"] } := by
  have ha : ∀ name ∈ ["a.edl"], '\x00' ∉ name.toList := by decide
  have hb : ∀ name ∈ ["b.edl"], '\x00' ∉ name.toList := by decide
  have hnull : '\x00' ∈ "x\x00".toList := by decide
  have hwords : parse ["lint", "a.edl", "x\x00"] =
      .ok (.lint .warning { files := ["a.edl", "x\x00"] }) := rfl
  have hwords' : parse ["lint", "b.edl", "x\x00", "c.edl"] =
      .ok (.lint .warning { files := ["b.edl", "x\x00", "c.edl"] }) := rfl
  refine ⟨rfl, ?_, ?_⟩
  · rw [run_of_parse hwords, lint_of_null _ _ _ ha hnull rfl, Outcome.mk.injEq]
    exact ⟨rfl, rfl, by decide +kernel⟩
  · rw [run_of_parse hwords', lint_of_null _ _ _ hb hnull rfl, Outcome.mk.injEq]
    exact ⟨rfl, rfl, by decide +kernel⟩

end Cli

end Edl
