/-
The verdict on a text does not depend on how its lines end.

A file whose lines end with a carriage return and a line feed is linted in two forms.  When it is
read from disk, both together become one line feed; when an editor hands over its text, the carriage
return stays and is the last character of its line.  The carriage return is blank, and the checks of
syntax and meaning do not look at blanks at the end of a line, so they find the same on both lines,
although the stretch that they mark may differ.  The checks of style do look at it, but they report
no errors.

Main definitions:

* `Edl.Text.ReturnsPaired`, `Edl.Text.mergePairs` — every carriage return stands before a line
  feed, and the text with all such pairs made line feeds;
* `Edl.verdicts` — what is said about syntax and meaning, and on which lines;
* `Edl.SameVerdict`, `Edl.Lint.Agree` — findings and scans that say the same.

Main results:

* `Edl.Text.forall₂_cutAt_mergePairs` — the lines in both forms differ by blanks at their end;
* `Edl.Lint.agree_scanLines` — a scan of such lines agrees with a scan of the others;
* `Edl.Lint.paired_returns_keep_the_verdict` — **the verdict is the same in both forms**, for the
  command line and for a service.
-/

import Mathlib.Data.List.Forall2
import Edl.Proofs.Encoding
import Edl.Proofs.Lines
import Edl.Proofs.Padding
import Edl.Proofs.Report
import Edl.Proofs.Synchronisation

set_option relaxedAutoImplicit false
set_option autoImplicit false

namespace Edl

/-! ### Line ends -/

namespace Text

/-- Every carriage return has a line feed right after it. -/
def ReturnsPaired (text : List Char) : Prop :=
  ∀ before after, text = before ++ '\r' :: after → ∃ rest, after = '\n' :: rest

/-- The text with every carriage return that has a line feed right after it left out. -/
def mergePairs : List Char → List Char
  | '\r' :: '\n' :: rest => '\n' :: mergePairs rest
  | c :: rest => c :: mergePairs rest
  | [] => []

theorem ReturnsPaired.tail {c : Char} {text : List Char} (h : ReturnsPaired (c :: text)) :
    ReturnsPaired text := by
  intro before after heq
  exact h (c :: before) after (by rw [heq, List.cons_append])

/-- A carriage return at the head of such a text starts a pair. -/
theorem ReturnsPaired.head_ne {c : Char} {text : List Char} (h : ReturnsPaired (c :: text))
    (hpair : ∀ rest, c = '\r' → text = '\n' :: rest → False) : c ≠ '\r' := by
  rintro rfl
  obtain ⟨rest, heq⟩ := h [] text rfl
  exact hpair rest rfl heq

theorem ReturnsPaired.cons_of_ne {c : Char} (hc : c ≠ '\r') {text : List Char}
    (h : ReturnsPaired text) : ReturnsPaired (c :: text) := by
  intro before after heq
  cases before with
  | nil => exact absurd (List.cons.inj heq).1 hc
  | cons _ before => exact h before after (List.cons.inj heq).2

theorem ReturnsPaired.pair {text : List Char} (h : ReturnsPaired text) :
    ReturnsPaired ('\r' :: '\n' :: text) := by
  intro before after heq
  cases before with
  | nil => exact ⟨text, (List.cons.inj heq).2.symm⟩
  | cons _ before => exact h.cons_of_ne (by decide) before after (List.cons.inj heq).2

/-- A carriage return that is not paired is kept. -/
theorem returnsPaired_iff {text : List Char} : ReturnsPaired text ↔ '\r' ∉ mergePairs text := by
  fun_induction mergePairs text with
  | case1 rest ih =>
      rw [List.mem_cons, not_or, ← ih]
      exact ⟨fun h => ⟨by decide, h.tail.tail⟩, fun h => h.2.pair⟩
  | case2 c rest hpair ih =>
      rw [List.mem_cons, not_or, ← ih]
      exact ⟨fun h => ⟨Ne.symm (h.head_ne hpair), h.tail⟩, fun h => h.2.cons_of_ne (Ne.symm h.1)⟩
  | case3 =>
      refine ⟨fun _ => List.not_mem_nil, fun _ before after heq => ?_⟩
      simp at heq

instance (text : List Char) : Decidable (ReturnsPaired text) :=
  decidable_of_iff _ returnsPaired_iff.symm

theorem foldLineEnds_cons_of_ne {c : Char} (hc : c ≠ '\r') (text : List Char) :
    foldLineEnds (c :: text) = c :: foldLineEnds text := by
  rw [foldLineEnds]
  · intro rest h
    exact absurd h hc
  · exact hc

/-- When all carriage returns are paired, there are no other line ends to fold. -/
theorem foldLineEnds_of_returnsPaired {text : List Char} (h : ReturnsPaired text) :
    foldLineEnds text = mergePairs text := by
  fun_induction mergePairs text with
  | case1 rest ih => rw [foldLineEnds, ih h.tail.tail]
  | case2 c rest hpair ih =>
      rw [foldLineEnds_cons_of_ne (h.head_ne hpair), ih h.tail]
  | case3 => rfl

/-- The second line is the first one with blanks after it. -/
def Padded (line longer : List Char) : Prop :=
  ∃ pad, Blank pad ∧ longer = line ++ pad

/-- A line of a text in both forms: the carriage return at its end is blank. -/
theorem forall₂_cutAt_mergePairs (text : List Char) :
    List.Forall₂ Padded (cutAt '\n' (mergePairs text)) (cutAt '\n' text) := by
  fun_induction mergePairs text with
  | case1 rest ih =>
      have hcut : cutAt '\n' ('\r' :: '\n' :: rest) = ['\r'] :: cutAt '\n' rest :=
        cutAt_cons_of_ne (by decide) (cutAt_separator_cons rest)
      rw [cutAt_separator_cons, hcut]
      exact .cons ⟨['\r'], List.forall_mem_singleton.2 (by decide), rfl⟩ ih
  | case2 c rest _ ih =>
      by_cases hc : c = '\n'
      · subst hc
        rw [cutAt_separator_cons, cutAt_separator_cons]
        exact .cons ⟨[], List.forall_mem_nil _, rfl⟩ ih
      · obtain ⟨piece, pieces, hpieces⟩ := List.exists_cons_of_ne_nil (cutAt_ne_nil '\n' rest)
        obtain ⟨line, lines, hlines⟩ :=
          List.exists_cons_of_ne_nil (cutAt_ne_nil '\n' (mergePairs rest))
        rw [hpieces, hlines, List.forall₂_cons] at ih
        obtain ⟨⟨pad, hpad, rfl⟩, hrest⟩ := ih
        rw [cutAt_cons_of_ne hc hpieces, cutAt_cons_of_ne hc hlines]
        exact .cons ⟨pad, hpad, rfl⟩ hrest
  | case3 => exact .cons ⟨[], List.forall_mem_nil _, rfl⟩ .nil

end Text

/-! ### Verdicts -/

/-- The finding is about syntax or meaning, and not about style. -/
def Diagnostic.isStructural (d : Diagnostic) : Bool :=
  d.category = some "syntax" || d.category = some "semantic"

/-- What the findings about syntax and meaning say, and on which lines. -/
def verdicts (ds : List Diagnostic) : List (Nat × String × String × Severity) :=
  (ds.filter Diagnostic.isStructural).map fun d =>
    (d.range.start.line, d.code, d.message, d.severity)

/-- The findings say the same about syntax and meaning, and there are errors among both or neither
of them. -/
structure SameVerdict (ds es : List Diagnostic) : Prop where
  verdicts_eq : verdicts ds = verdicts es
  hasErrors_eq : hasErrors ds = hasErrors es

theorem SameVerdict.refl (ds : List Diagnostic) : SameVerdict ds ds := ⟨rfl, rfl⟩

theorem SameVerdict.append {ds es ds' es' : List Diagnostic} (h : SameVerdict ds es)
    (h' : SameVerdict ds' es') : SameVerdict (ds ++ ds') (es ++ es') where
  verdicts_eq := by
    have hverdicts := h.verdicts_eq
    have hverdicts' := h'.verdicts_eq
    unfold verdicts at *
    rw [List.filter_append, List.filter_append, List.map_append, List.map_append, hverdicts,
      hverdicts']
  hasErrors_eq := by
    have herrors := h.hasErrors_eq
    have herrors' := h'.hasErrors_eq
    unfold hasErrors at *
    rw [List.any_append, List.any_append, herrors, herrors']

/-- One finding on the same line in two places. -/
theorem sameVerdict_singleton (t : Template) {r r' : Text.Range}
    (h : r.start.line = r'.start.line) : SameVerdict [t.diagnostic r] [t.diagnostic r'] where
  verdicts_eq := by
    have hsame : (t.diagnostic r).isStructural = (t.diagnostic r').isStructural := rfl
    unfold verdicts
    cases hstructural : (t.diagnostic r').isStructural with
    | false =>
        rw [List.filter_cons_of_neg (by simp [hsame, hstructural]),
          List.filter_cons_of_neg (by simp [hstructural])]
    | true =>
        rw [List.filter_cons_of_pos (hsame.trans hstructural), List.filter_cons_of_pos hstructural]
        simp [Template.diagnostic, h]
  hasErrors_eq := rfl

namespace Lint

open Text

/-! ### Scans that agree -/

/-- Both scans succeed, and their findings say the same. -/
def Agree (x y : Except Fault (List Diagnostic)) : Prop :=
  ∃ ds es, x = .ok ds ∧ y = .ok es ∧ SameVerdict ds es

/-- Scans one after another agree if each does. -/
theorem Agree.append {x y x' y' : Except Fault (List Diagnostic)} (h : Agree x y)
    (h' : Agree x' y') :
    Agree (do let found ← x; let others ← x'; return found ++ others)
      (do let found ← y; let others ← y'; return found ++ others) := by
  obtain ⟨ds, es, rfl, rfl, hsame⟩ := h
  obtain ⟨ds', es', rfl, rfl, hsame'⟩ := h'
  exact ⟨ds ++ ds', es ++ es', rfl, rfl, hsame.append hsame'⟩

/-- The rule says the same about both lines. -/
def Rule.AgreesOn (rule : Rule) (line longer : String) : Prop :=
  ∀ number : Nat, Agree (rule.run line number) (rule.run longer number)

/-- What a finding becomes says what its template says. -/
theorem Finding.Fits.exists_place {f : Finding} {line : String} (hf : f.Fits line.toList)
    (number : Nat) :
    ∃ r, f.place number = .ok (f.template.diagnostic r) ∧ r.start.line = number := by
  obtain ⟨d, hplace, -, -, hmarks⟩ := hf.place number
  have hd : d = f.template.diagnostic d.range := by
    unfold Finding.place at hplace
    cases hrange : Range.onLine number f.start f.stop with
    | error fault =>
        rw [hrange] at hplace
        cases hplace
    | ok r =>
        rw [hrange] at hplace
        obtain rfl := Except.ok.inj hplace
        rfl
  exact ⟨d.range, hd ▸ hplace, hmarks.start_line⟩

section

variable {check : Check} {code name domain confidence : String} {line longer : String}

/-- The report of a tidy check on a line. -/
theorem Check.Tidy.report_cases (h : check.Tidy code) (line : String) (number : Nat) :
    (check line.toList = .ok none ∧ check.report line number = .ok []) ∨
      ∃ f r, check line.toList = .ok (some f) ∧ r.start.line = number ∧
        check.report line number = .ok [f.template.diagnostic r] := by
  obtain ⟨found, hcheck, htidy⟩ := h line.toList
  cases found with
  | none => exact .inl ⟨hcheck, Check.report_of_none hcheck number⟩
  | some f =>
      obtain ⟨r, hplace, hline⟩ := (htidy f rfl).1.exists_place number
      refine .inr ⟨f, r, hcheck, hline, ?_⟩
      rw [Check.report_of_some hcheck, hplace]
      rfl

/-- A check that does not look at the blanks says the same about a line with more of them. -/
theorem Check.Tidy.agreesOn_of_ignoresPadding (h : check.Tidy code) (hpad : check.IgnoresPadding)
    (hlonger : Padded line.toList longer.toList) :
    (Rule.ofCheck code name domain confidence check).AgreesOn line longer := by
  intro number
  obtain ⟨pad, hblank, hlonger⟩ := hlonger
  have htemplate := hpad line.toList pad hblank
  rw [← hlonger] at htemplate
  change Agree (check.report line number) (check.report longer number)
  rcases h.report_cases line number with ⟨hnone, hreport⟩ | ⟨f, r, hsome, hline, hreport⟩
  · rcases h.report_cases longer number with ⟨-, hreport'⟩ | ⟨f', r', hsome', -, -⟩
    · rw [hreport, hreport']
      exact ⟨_, _, rfl, rfl, .refl []⟩
    · rw [hnone, hsome'] at htemplate
      cases htemplate
  · rcases h.report_cases longer number with ⟨hnone', -⟩ | ⟨f', r', hsome', hline', hreport'⟩
    · rw [hsome, hnone'] at htemplate
      cases htemplate
    · rw [hsome, hsome'] at htemplate
      have hsame : f'.template = f.template := Option.some.inj (Except.ok.inj htemplate)
      rw [hreport, hreport', hsame]
      exact ⟨_, _, rfl, rfl, sameVerdict_singleton _ (hline.trans hline'.symm)⟩

/-- What the check finds is a matter of style and no error. -/
def Check.IsStylistic (check : Check) : Prop :=
  ∀ line f, check line = .ok (some f) →
    f.template.category = some "style" ∧ f.template.severity ≠ .error

/-- A check of style has no part in the verdict. -/
theorem Check.Tidy.agreesOn_of_isStylistic (h : check.Tidy code) (hstyle : check.IsStylistic)
    (line longer : String) :
    (Rule.ofCheck code name domain confidence check).AgreesOn line longer := by
  intro number
  -- whatever is reported on a line counts for nothing
  have hnothing : ∀ other : String, ∃ ds, check.report other number = .ok ds ∧
      SameVerdict ds [] := by
    intro other
    rcases h.report_cases other number with ⟨-, hreport⟩ | ⟨f, r, hsome, -, hreport⟩
    · exact ⟨[], hreport, .refl []⟩
    · obtain ⟨hcategory, hseverity⟩ := hstyle _ f hsome
      refine ⟨_, hreport, ?_, ?_⟩
      · simp [verdicts, Diagnostic.isStructural, Template.diagnostic, hcategory]
      · simp [hasErrors, Template.diagnostic, hseverity]
  obtain ⟨ds, hreport, hverdict⟩ := hnothing line
  obtain ⟨es, hreport', hverdict'⟩ := hnothing longer
  exact ⟨ds, es, hreport, hreport', hverdict.verdicts_eq.trans hverdict'.verdicts_eq.symm,
    hverdict.hasErrors_eq.trans hverdict'.hasErrors_eq.symm⟩

end

theorem isStylistic_lineTooLong (limit : Int) : (lineTooLong limit).IsStylistic := by
  intro line f h
  unfold lineTooLong at h
  split at h
  · cases h
  · obtain rfl := Option.some.inj (Except.ok.inj h)
    exact ⟨rfl, nofun⟩

theorem isStylistic_mixedIndentation : mixedIndentation.IsStylistic := by
  intro line f h
  unfold mixedIndentation at h
  split at h
  · obtain rfl := Option.some.inj (Except.ok.inj h)
    exact ⟨rfl, nofun⟩
  · cases h

theorem isStylistic_trailingWhitespace : trailingWhitespace.IsStylistic := by
  intro line f h
  unfold trailingWhitespace at h
  split at h
  · obtain rfl := Option.some.inj (Except.ok.inj h)
    exact ⟨rfl, nofun⟩
  · cases h

/-- The built-in rules say the same about a line with more blanks at its end. -/
theorem agreesOn_defaultRules {line longer : String}
    (h : Padded line.toList longer.toList) : ∀ rule ∈ defaultRules, rule.AgreesOn line longer := by
  simp only [defaultRules, List.forall_mem_cons]
  exact ⟨tidy_missingBracket.agreesOn_of_ignoresPadding ignoresPadding_missingBracket h,
    tidy_invalidEventName.agreesOn_of_ignoresPadding ignoresPadding_invalidEventName h,
    tidy_missingSemicolon.agreesOn_of_ignoresPadding ignoresPadding_missingSemicolon h,
    tidy_undefinedEvent.agreesOn_of_ignoresPadding ignoresPadding_undefinedEvent h,
    tidy_selfTransition.agreesOn_of_ignoresPadding ignoresPadding_selfTransition h,
    (tidy_lineTooLong 120).agreesOn_of_isStylistic (isStylistic_lineTooLong 120) line longer,
    tidy_mixedIndentation.agreesOn_of_isStylistic isStylistic_mixedIndentation line longer,
    tidy_trailingWhitespace.agreesOn_of_isStylistic isStylistic_trailingWhitespace line longer,
    by simp⟩

/-! ### Lines and texts -/

section

variable {rules : List Rule}

theorem agree_scanLine {line longer : String} (h : ∀ rule ∈ rules, rule.AgreesOn line longer)
    (number : Nat) : Agree (scanLine line number rules) (scanLine longer number rules) := by
  induction rules with
  | nil => exact ⟨[], [], rfl, rfl, .refl []⟩
  | cons rule rules ih =>
      exact (h rule (List.mem_cons_self ..) number).append
        (ih fun r hr => h r (List.mem_cons_of_mem _ hr))

/-- Scans of lines on which every rule agrees, one by one, agree. -/
theorem agree_scanLines {lines longer : List String}
    (h : List.Forall₂ (fun l m => ∀ rule ∈ rules, rule.AgreesOn l m) lines longer)
    (number : Nat) : Agree (scanLines rules number lines) (scanLines rules number longer) := by
  induction h generalizing number with
  | nil => exact ⟨[], [], rfl, rfl, .refl []⟩
  | cons hline _ ih => exact (agree_scanLine hline number).append (ih (number + 1))

end

/-- Linting a text in both forms gives the same verdict. -/
theorem sameVerdict_found_mergePairs (u : String) (settings : Config.Settings) :
    SameVerdict (found (String.ofList (mergePairs u.toList)) settings) (found u settings) := by
  cases hlinting : settings.linting with
  | false =>
      rw [found_of_not_linting hlinting, found_of_not_linting hlinting]
      exact .refl []
  | true =>
      have hlines : List.Forall₂ (fun l m => ∀ rule ∈ defaultRules, rule.AgreesOn l m)
          (splitLines (String.ofList (mergePairs u.toList))) (splitLines u) := by
        rw [splitLines, splitLines, String.toList_ofList, List.forall₂_map_left_iff,
          List.forall₂_map_right_iff]
        refine (forall₂_cutAt_mergePairs u.toList).imp fun line longer hpadded => ?_
        refine agreesOn_defaultRules ?_
        rwa [String.toList_ofList, String.toList_ofList]
      obtain ⟨ds, es, hscan, hscan', hsame⟩ := agree_scanLines hlines 0
      have hrun := run_of_linting hlinting checkRules_defaultRules
      rw [found_of_run ((hrun _).trans (by rw [hscan]; rfl)),
        found_of_run ((hrun _).trans (by rw [hscan']; rfl))]
      exact hsame

end Lint

/-! ### The two ways to lint a text -/

/-- Reading a file that holds a text with paired carriage returns. -/
theorem Cli.readText_of_returnsPaired {reader : Cli.Reader} {name uri : String} {text : List Char}
    {octets : List UInt8} (hpaired : Text.ReturnsPaired text)
    (hread : reader (Files.Name.ofText name) = .ok (uri, octets))
    (hdecode : Text.Utf8.decode octets = .ok text) :
    Cli.readText reader name = .ok (uri, String.ofList (Text.mergePairs text)) := by
  unfold Cli.readText
  rw [hread]
  dsimp only
  rw [hdecode]
  dsimp only
  rw [Text.foldLineEnds_of_returnsPaired hpaired]

/-- A service with the built-in rules, alone on a host, has the findings in every open document of
the language. -/
theorem HostM.find?_of_activate_defaultRules {σ : Type} (client : Client σ) (state : σ)
    {entries : List (String × Config.Value)} {w : Workspace}
    (hcreate : Workspace.create entries = .ok w) (before : List Request) :
    ∃ s h₁, activate client Lint.defaultRules
        (Host.after client before { workspace := w, client := state }) = (.ok s, h₁) ∧
      ∀ after settings, (h₁.after client after).workspace.settings = .ok settings →
        ∃ c, (h₁.after client after).storeOf? s = some c ∧
          ∀ d ∈ (h₁.after client after).workspace.documents.values, d.isEdl = true →
            c.entries.find? d.uri = some ⟨some d.version, Lint.found d.text settings⟩ := by
  have hscan : ∀ w : Workspace, w.Readable → ∀ d, ∃ o, w.scan Lint.defaultRules d = .ok o := by
    rintro w ⟨settings, hsettings⟩ d
    exact ⟨_, (Workspace.scan_of_settings hsettings _ d).trans (Lint.run_default d.text settings)⟩
  have hw := (Workspace.sound_of_create hcreate).nextAll before
  let h₀ : Host σ := { workspace := w.nextAll before, client := state }
  have hbefore : Host.after client before { workspace := w, client := state } = h₀ :=
    after_of_bare client (bare_mk w state) before
  rw [hbefore]
  obtain ⟨hok, hstep⟩ := @LintedWorkspace.inStep_firstScan Lint.defaultRules σ h₀ hw
    (hscan _ hw.readable)
  have hadmitted : h₀.admission Lint.defaultRules = .ok () :=
    admission_eq_ok_iff.2 ⟨Lint.checkRules_defaultRules, hok, rfl⟩
  obtain ⟨records, hactivate⟩ := activate_of_admission client hadmitted
  refine ⟨_, _, hactivate, fun after settings hsettings => ?_⟩
  obtain ⟨l, linter, c, hrules, hrun, hs⟩ :=
    after_of_activate client (bare_mk _ state) hactivate after
  -- the collection is in step after the first scan and stays so
  have hstep' := hstep.run hw hscan after
  have hw' : (LintedWorkspace.run Lint.defaultRules
      ⟨h₀.workspace, (h₀.firstScan Lint.defaultRules).2⟩ after).workspace.Sound := by
    rw [LintedWorkspace.run_workspace]
    exact hw.nextAll after
  rw [hrun] at hstep' hw'
  refine ⟨c, hs.storeOf?_eq, fun d hmem hedl => ?_⟩
  obtain ⟨o, ho, hentry⟩ := hstep'.entries d.uri d (hw'.find?_uri hmem) hedl
  rw [Workspace.scan_of_settings hsettings] at ho
  rw [hentry, Lint.found_of_run ho]
  rfl

namespace Lint

/-- **The verdict on a text does not depend on how its lines end.**  In the text every carriage
return has a line feed right after it.  Linting it gives, about syntax and meaning, the same
sequence of lines, codes, messages and severities as linting it with all these carriage returns left
out; so there are errors in both or in neither.  Every text can be held by a file.  The second form
is what a run on a file that holds the text lints, and so the run on that file alone ends with
status one exactly if there are errors in the first form, which are what a service with the built-in
rules stores for a document with the text. -/
theorem paired_returns_keep_the_verdict (u : String) (hpaired : Text.ReturnsPaired u.toList)
    (settings : Config.Settings) :
    ∃ o p, run u settings = .ok o ∧
      run (String.ofList (Text.mergePairs u.toList)) settings = .ok p ∧
      verdicts o.diagnostics = verdicts p.diagnostics ∧
      hasErrors o.diagnostics = hasErrors p.diagnostics ∧
      Text.Utf8.decode (Text.Utf8.encode u.toList) = .ok u.toList ∧
      (∀ (reader : Cli.Reader) (words : List String) (level : Log.Level)
        (options : Cli.LintOptions) (name uri : String) (octets : List UInt8),
        Cli.parse words = .ok (.lint level options) → options.files = [name] →
        '\x00' ∉ name.toList → options.linting = settings.linting →
        reader (Files.Name.ofText name) = .ok (uri, octets) →
        Text.Utf8.decode octets = .ok u.toList →
          Cli.readText reader name = .ok (uri, String.ofList (Text.mergePairs u.toList)) ∧
          ∃ status, (Cli.run reader words).exit = .ok status ∧
            (status = 1 ↔ ∃ d ∈ o.diagnostics, d.severity = .error)) ∧
      (∀ (σ : Type) (client : Client σ) (state : σ) (entries : List (String × Config.Value))
        (w : Workspace) (before : List Request), Workspace.create entries = .ok w →
        ∃ s h₁, HostM.activate client defaultRules
            (Host.after client before { workspace := w, client := state }) = (.ok s, h₁) ∧
          ∀ after h, h₁.after client after = h → h.workspace.settings = .ok settings →
            ∃ c, h.storeOf? s = some c ∧
              ∀ d ∈ h.workspace.documents.values, d.isEdl = true → d.text = u →
                ∃ e, c.entries.find? d.uri = some e ∧ e.diagnostics = o.diagnostics) := by
  obtain ⟨hverdicts, herrors⟩ := sameVerdict_found_mergePairs u settings
  refine ⟨_, _, run_default u settings, run_default _ settings, hverdicts.symm, herrors.symm,
    Text.Utf8.decode_encode u.toList, ?_, ?_⟩
  · intro reader words level options name uri octets hwords hfiles hname hlinting hread hdecode
    have htext := Cli.readText_of_returnsPaired hpaired hread hdecode
    obtain ⟨status, hexit, hstatus⟩ := Cli.exit_lint_singleton level hfiles hname htext
    refine ⟨htext, status, ?_, ?_⟩
    · rw [Cli.run_of_parse hwords, hexit]
    · rw [hstatus, found_congr hlinting, herrors]
      simp [hasErrors]
  · intro σ client state entries w before hcreate
    obtain ⟨s, h₁, hactivate, hafter⟩ :=
      HostM.find?_of_activate_defaultRules client state hcreate before
    refine ⟨s, h₁, hactivate, ?_⟩
    rintro after h rfl hsettings
    obtain ⟨c, hstore, hfind⟩ := hafter after settings hsettings
    refine ⟨c, hstore, ?_⟩
    rintro d hmem hedl rfl
    exact ⟨_, hfind d hmem hedl, rfl⟩

theorem paired_returns_keep_the_verdict_event :
    Text.ReturnsPaired "event Bad \x7b\r\nidle -> idle;\r\n".toList ∧
      ∃ o p, run "event Bad \x7b\r\nidle -> idle;\r\n" = .ok o ∧
        run "event Bad \x7b\nidle -> idle;\n" = .ok p ∧
        verdicts o.diagnostics = verdicts p.diagnostics ∧
        (verdicts p.diagnostics).map (fun v => (v.1, v.2.1)) =
          [(0, "missing-bracket"), (0, "invalid-event-name"), (1, "self-transition")] ∧
        o.diagnostics.length = 5 ∧ p.diagnostics.length = 3 := by
  have hpaired : Text.ReturnsPaired "event Bad \x7b\r\nidle -> idle;\r\n".toList := by decide
  obtain ⟨o, p, ho, hp, hverdicts, -⟩ := paired_returns_keep_the_verdict _ hpaired {}
  refine ⟨hpaired, o, p, ho, hp, hverdicts, ?_⟩
  rw [← found_of_run ho, ← found_of_run hp]
  decide +kernel

end Lint

end Edl
