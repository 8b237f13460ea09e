/-
How files become text.

A file is read in two steps: its octets are decoded, strictly, and then all line ends are made line
feeds.  The first step accepts exactly the encodings of texts, and there is only one text for given
octets; the second replaces every carriage return with a line feed behind it, and then every other
one.  A file that the first step refuses is not linted at all; the complaint about it says where the
longest part that could have been read ends.

Main definitions:

* `Edl.Cli.LintsAs` — a text is linted for one of the listed files.

Main results:

* `Edl.Text.foldLineEnds_eq_map` — folding line ends in two steps;
* `Edl.Cli.readText_of_decode_ok`, `Edl.Cli.readText_of_decode_error` — reading a file;
* `Edl.Cli.Findings.Covers.find?_eq_some_iff` — what is filed under a name;
* `Edl.Cli.files_are_read_as_strict_utf8` — **which files are linted, and as which text**.
-/

import Edl.Proofs.Decoding
import Edl.Proofs.Verdict

set_option relaxedAutoImplicit false
set_option autoImplicit false

namespace Edl

/-! ### Line ends -/

/-- A carriage return without a line feed behind it is a line end of its own. -/
theorem Text.foldLineEnds_return {text : List Char} (h : ∀ rest, text ≠ '\n' :: rest) :
    foldLineEnds ('\r' :: text) = '\n' :: foldLineEnds text := by
  rw [foldLineEnds]
  intro rest hrest
  exact h rest hrest

/-- Folding line ends replaces first every carriage return together with the line feed behind it,
and then every other one. -/
theorem Text.foldLineEnds_eq_map (text : List Char) :
    foldLineEnds text = (mergePairs text).map fun c => if c = '\r' then '\n' else c := by
  fun_induction mergePairs text with
  | case1 rest ih =>
      rw [foldLineEnds, ih]
      rfl
  | case2 c rest hpair ih =>
      rw [List.map_cons, ← ih]
      by_cases hc : c = '\r'
      · subst hc
        rw [if_pos rfl, foldLineEnds_return fun tail htail => hpair tail rfl htail]
      · rw [if_neg hc, foldLineEnds_cons_of_ne hc]
  | case3 => rfl

namespace Cli

open Text (mergePairs)
open Text.Utf8 (encode decode Valid ValidUpTo Names)

/-! ### Reading a file -/

section

variable {reader : Reader} {name uri : String} {octets : List UInt8}

theorem readText_of_decode_ok (hfile : reader (Files.Name.ofText name) = .ok (uri, octets))
    {text : List Char} (hdecode : decode octets = .ok text) :
    readText reader name = .ok (uri, String.ofList (Text.foldLineEnds text)) := by
  unfold readText
  simp only [hfile, hdecode]

theorem readText_of_decode_error (hfile : reader (Files.Name.ofText name) = .ok (uri, octets))
    {fault : Text.Utf8.Fault} (hdecode : decode octets = .error fault) :
    readText reader name = .error (.encoding fault) := by
  unfold readText
  simp only [hfile, hdecode]

/-- A file with valid octets can be read, and no other. -/
theorem isReadable_iff_valid (hfile : reader (Files.Name.ofText name) = .ok (uri, octets)) :
    isReadable reader name = true ↔ Valid octets := by
  rw [Text.Utf8.valid_iff_exists_decode]
  cases hdecode : decode octets with
  | ok text => simp [isReadable, readText_of_decode_ok hfile hdecode]
  | error fault => simp [isReadable, readText_of_decode_error hfile hdecode]

end

/-! ### Linting it -/

section

variable {reader : Reader} {settings : Config.Settings} {names : List String} {name : String}

/-- Filed under a name are the findings in its file, if it is listed and can be read. -/
theorem Findings.Covers.find?_eq_some_iff {f : Findings} (hf : f.Covers reader settings names)
    {ds : List Diagnostic} :
    f.results.find? name = some ds ↔
      (name ∈ names ∧ isReadable reader name = true) ∧ ds = foundIn reader settings name := by
  rw [Table.find?_eq_some_iff, hf.entries_eq, filed, List.mem_map]
  constructor
  · rintro ⟨shownName, hshown, heq⟩
    obtain ⟨rfl, rfl⟩ := Prod.mk.inj heq
    exact ⟨mem_shown.1 hshown, rfl⟩
  · rintro ⟨hname, rfl⟩
    exact ⟨name, mem_shown.2 hname, rfl⟩

end

/-- The given text is linted for one of the listed files: what validating it finds is filed under
the name of the file, and what validating it says is put on record. -/
def LintsAs (reader : Reader) (options : LintOptions) (name uri text : String) : Prop :=
  ∃ ds r, Lint.validate uri text { linting := options.linting } = .ok (ds, r) ∧
    (lintFiles reader { linting := options.linting } options.files).2.results.find? name = some ds ∧
    .record r ∈ (lintFiles reader { linting := options.linting } options.files).2.remarks

section

variable {reader : Reader} {options : LintOptions} {name uri text : String}

/-- A listed file is linted as the text that is read from it. -/
theorem lintsAs_of_readText (hnames : ∀ name ∈ options.files, '\x00' ∉ name.toList)
    (hname : name ∈ options.files) (hread : readText reader name = .ok (uri, text)) :
    LintsAs reader options name uri text := by
  obtain ⟨f, hlint, hf⟩ := lintFiles_of_names reader { linting := options.linting } hnames
  refine ⟨_, _, Lint.validate_default uri text _, ?_, ?_⟩
  · rw [hlint]
    refine hf.find?_eq_some_iff.2 ⟨⟨hname, ?_⟩, ?_⟩
    · simp [isReadable, hread]
    · simp [foundIn, hread]
  · rw [hlint, hf.remarks_eq]
    refine List.mem_map.2 ⟨name, hname, ?_⟩
    simp only [remarkOn, hread]

theorem exists_lintsAs_iff (hnames : ∀ name ∈ options.files, '\x00' ∉ name.toList)
    (hname : name ∈ options.files) {octets : List UInt8}
    (hfile : reader (Files.Name.ofText name) = .ok (uri, octets)) :
    (∃ text, LintsAs reader options name uri text) ↔ Valid octets := by
  obtain ⟨f, hlint, hf⟩ := lintFiles_of_names reader { linting := options.linting } hnames
  rw [← isReadable_iff_valid hfile]
  constructor
  · rintro ⟨text, ds, r, -, hfind, -⟩
    rw [hlint] at hfind
    exact (hf.find?_eq_some_iff.1 hfind).1.2
  · intro hreadable
    rw [isReadable_iff_valid hfile, Text.Utf8.valid_iff_exists_decode] at hreadable
    obtain ⟨decoded, hdecode⟩ := hreadable
    exact ⟨_, lintsAs_of_readText hnames hname (readText_of_decode_ok hfile hdecode)⟩

/-- The complaint about a listed file is a line of what is said on the side. -/
theorem exists_complaint_mem_stderr (level : Log.Level)
    (hnames : ∀ name ∈ options.files, '\x00' ∉ name.toList) (hname : name ∈ options.files)
    {complaint : String} (hcomplaint : complaint? reader name = some complaint) :
    ∃ said, (lint reader level options).stderr = lines said ∧ complaint ∈ said := by
  obtain ⟨f, hf, hlint⟩ := lint_of_names reader level options hnames
  obtain ⟨logged, -, hlines⟩ := hf.lines_remarks level
  refine ⟨_, by rw [hlint], ?_⟩
  rw [hlines]
  refine List.mem_append_right _ (List.mem_filterMap.2 ⟨name, hname, ?_⟩)
  rw [hcomplaint, Option.some_or]

end

/-- **Files are read as strict UTF-8.**  A listed file that exists is linted if and only if its
octets are the encoding of a text.  There is then only one such text, and it is linted with every
carriage return and the line feed behind it, and then every other carriage return, made a line feed.
Otherwise nothing is linted for the file, the status is two, and the complaint about the file names
the place where the longest part of the octets ends, from their start on, that is the encoding of a
text. -/
theorem files_are_read_as_strict_utf8 (reader : Reader) (words : List String) (level : Log.Level)
    (options : LintOptions) (hwords : parse words = .ok (.lint level options))
    (hnames : ∀ name ∈ options.files, '\x00' ∉ name.toList) (name uri : String)
    (octets : List UInt8) (hname : name ∈ options.files)
    (hfile : reader (Files.Name.ofText name) = .ok (uri, octets)) :
    run reader words = lint reader level options ∧
    (∃ status, (lint reader level options).exit = .ok status) ∧
    ((∃ text, LintsAs reader options name uri text) ↔ ∃ s, encode s = octets) ∧
    (∀ s t, encode s = octets → encode t = octets → s = t) ∧
    (∀ s text, encode s = octets →
      text = String.ofList ((mergePairs s).map fun c => if c = '\r' then '\n' else c) →
        readText reader name = .ok (uri, text) ∧ LintsAs reader options name uri text) ∧
    ((¬∃ s, encode s = octets) →
      (lintFiles reader { linting := options.linting } options.files).2.results.find? name = none ∧
      (lint reader level options).exit = .ok 2 ∧
      ∃ length place, ∃ reason : Text.Utf8.Reason, ValidUpTo octets length ∧
        Names octets length place ∧
        ∃ said, (lint reader level options).stderr = lines said ∧
          name ++ ": cannot read file: " ++ ("'utf-8' codec can't decode " ++ place ++ ": " ++
            reason.text) ∈ said) := by
  obtain ⟨f, hf, hlint⟩ := lint_of_names reader level options hnames
  refine ⟨run_of_parse hwords, ⟨f.status, by rw [hlint]⟩, exists_lintsAs_iff hnames hname hfile,
    ?_, ?_, ?_⟩
  · intro s t hs ht
    exact Text.Utf8.encode_injective (hs.trans ht.symm)
  · rintro s text hs rfl
    have hread := readText_of_decode_ok hfile (Text.Utf8.decode_eq_ok_iff.2 hs)
    rw [Text.foldLineEnds_eq_map] at hread
    exact ⟨hread, lintsAs_of_readText hnames hname hread⟩
  · intro hinvalid
    have hunreadable : isReadable reader name = false := by
      rw [← Bool.not_eq_true, isReadable_iff_valid hfile]
      exact hinvalid
    cases hdecode : decode octets with
    | ok s => exact absurd ⟨s, Text.Utf8.decode_eq_ok_iff.1 hdecode⟩ hinvalid
    | error fault =>
        obtain ⟨place, hplace, hmessage⟩ := Text.Utf8.exists_names_of_decode hdecode
        have hcomplaint : complaint? reader name =
            some (name ++ ": cannot read file: " ++ fault.message) := by
          simp only [complaint?, readText_of_decode_error hfile hdecode]
          rfl
        obtain ⟨said, hstderr, hsaid⟩ := exists_complaint_mem_stderr level hnames hname
          hcomplaint
        rw [hmessage] at hsaid
        refine ⟨?_, ?_, fault.position, place, fault.reason,
          Text.Utf8.validUpTo_of_decode hdecode, hplace, said, hstderr, hsaid⟩
        · obtain ⟨g, hfiles, hg⟩ := lintFiles_of_names reader { linting := options.linting } hnames
          rw [hfiles, Option.eq_none_iff_forall_ne_some]
          intro ds hfind
          have hreadable := (hg.find?_eq_some_iff.1 hfind).1.2
          rw [hunreadable] at hreadable
          cases hreadable
        · rw [hlint, hf.status_eq_two_iff.2 ⟨name, hname, hunreadable⟩]

/-- Two files in the root: one whose line ends are carriage returns, and one with the octets of a
surrogate in it. -/
def shelf : Files.Tree :=
  (Files.Tree.addFile {} ["a.edl"] [0x61, 0x0D, 0x0D, 0x0A]).addFile ["b.edl"]
    [0xC3, 0xA9, 0x61, 0xED, 0xA0, 0x80]

theorem files_are_read_as_strict_utf8_surrogate :
    parse ["lint", "a.edl", "b.edl"] = .ok (.lint .warning { files := ["a.edl", "b.edl"] }) ∧
      (∀ name ∈ ["a.edl", "b.edl"], '\x00' ∉ name.toList) ∧
      shelf.read (Files.Name.ofText "a.edl") =
        .ok ("file:///a.edl", encode ['a', '\r', '\r', '\n']) ∧
      shelf.read (Files.Name.ofText "b.edl") =
        .ok ("file:///b.edl", [0xC3, 0xA9, 0x61, 0xED, 0xA0, 0x80]) ∧
      (¬∃ s, encode s = [0xC3, 0xA9, 0x61, 0xED, 0xA0, 0x80]) ∧
      readText shelf.read "a.edl" = .ok ("file:///a.edl", "a\n\n") ∧
      LintsAs shelf.read { files := ["a.edl", "b.edl"] } "a.edl" "file:///a.edl" "a\n\n" ∧
      ∃ outcome, run shelf.read ["lint", "a.edl", "b.edl"] = outcome ∧ outcome.exit = .ok 2 ∧
        ∃ place, ∃ reason : Text.Utf8.Reason,
          Names [0xC3, 0xA9, 0x61, 0xED, 0xA0, 0x80] 3 place ∧
          ∃ said, outcome.stderr = lines said ∧ "b.edl" ++ ": cannot read file: " ++
            ("'utf-8' codec can't decode " ++ place ++ ": " ++ reason.text) ∈ said := by
  have hwords : parse ["lint", "a.edl", "b.edl"] =
      .ok (.lint .warning { files := ["a.edl", "b.edl"] }) := rfl
  have hnames : ∀ name ∈ ["a.edl", "b.edl"], '\x00' ∉ name.toList := by decide
  have ha : shelf.read (Files.Name.ofText "a.edl") =
      .ok ("file:///a.edl", encode ['a', '\r', '\r', '\n']) := rfl
  have hb : shelf.read (Files.Name.ofText "b.edl") =
      .ok ("file:///b.edl", [0xC3, 0xA9, 0x61, 0xED, 0xA0, 0x80]) := rfl
  have hdecode : decode [0xC3, 0xA9, 0x61, 0xED, 0xA0, 0x80] =
      .error ⟨3, [0xED], .continuation⟩ := rfl
  have hinvalid : ¬∃ s, encode s = [0xC3, 0xA9, 0x61, 0xED, 0xA0, 0x80] := by
    rintro ⟨s, hs⟩
    cases hdecode.symm.trans (Text.Utf8.decode_eq_ok_iff.2 hs)
  obtain ⟨-, -, -, -, hlinted, -⟩ := files_are_read_as_strict_utf8 shelf.read _ _ _ hwords hnames
    _ _ _ (by decide) ha
  obtain ⟨hread, hlints⟩ := hlinted _ "a\n\n" rfl rfl
  obtain ⟨hrun, -, -, -, -, hrefused⟩ := files_are_read_as_strict_utf8 shelf.read _ _ _ hwords
    hnames _ _ _ (by decide) hb
  obtain ⟨-, hexit, length, place, reason, hlength, hplace, hsaid⟩ := hrefused hinvalid
  obtain rfl := hlength.unique (Text.Utf8.validUpTo_of_decode hdecode)
  exact ⟨hwords, hnames, ha, hb, hinvalid, hread, hlints, _, hrun, hexit, place, reason, hplace,
    hsaid⟩

end Cli

end Edl
