/-
What can be read back from a report in JSON.

A report is an object of the files, each with an array of its findings, each finding an object of
six members.  The text of the report is read by the grammar of JSON, and members are then looked up
by their names; of members with one name the last one counts, as it does for a reader that keeps an
object in a table.  No file name occurs twice in a report, so every file is found with all its
findings.

Main definitions:

* `Edl.Json.Datum.members?`, `Edl.Json.Datum.natural?` and their like — what a datum is, if it is of
  the kind that is asked for;
* `Edl.Row`, `Edl.Diagnostic.row` — what a report tells of a finding;
* `Edl.Row.ofDatum?`, `Edl.Cli.reported?` — findings and reports read back.

Main results:

* `Edl.Row.ofDatum?_datum` — a finding is read back from its object;
* `Edl.Cli.reported?_datum` — a report is read back from its object;
* `Edl.Cli.json_report_loses_nothing` — **the report in JSON loses nothing**.
-/

import Edl.Proofs.JsonRendering
import Edl.Proofs.Overlay
import Edl.Proofs.Report

set_option relaxedAutoImplicit false
set_option autoImplicit false

namespace Edl

/-! ### The kinds of data -/

namespace Json.Datum

/-- The members of an object by their names; of those with one name the last counts. -/
def members? : Datum → Option (Table Datum)
  | object members => some (Table.ofList members)
  | _ => none

/-- The member of an object with the given name. -/
def member? (name : String) (d : Datum) : Option Datum :=
  d.members?.bind fun members => members.find? name

/-- The items of an array. -/
def items? : Datum → Option (List Datum)
  | array items => some items
  | _ => none

/-- The text of a string. -/
def text? : Datum → Option String
  | string text => some text
  | _ => none

/-- The text of a string, or none for null. -/
def optionalText? : Datum → Option (Option String)
  | null => some none
  | string text => some (some text)
  | _ => none

/-- A number that is natural. -/
def natural? : Datum → Option Nat
  | number value => if value.den = 1 ∧ 0 ≤ value.num then some value.num.toNat else none
  | _ => none

end Json.Datum

/-! ### Findings -/

/-- What a report tells of a finding; its severity is told by the word for it. -/
structure Row where
  code : String
  message : String
  severity : String
  start : Text.Position
  stop : Text.Position
  category : Option String
  hint : Option String
  deriving DecidableEq

/-- What a report has to tell of a finding. -/
def Diagnostic.row (d : Diagnostic) : Row where
  code := d.code
  message := d.message
  severity := d.severity.name
  start := d.range.start
  stop := d.range.stop
  category := d.category
  hint := d.hint

namespace Row

open Json

/-- The two ends of a range, from its four coordinates. -/
def ends? : Datum → Option (Text.Position × Text.Position)
  | .array [line, character, line', character'] => do
      let start : Text.Position := ⟨← line.natural?, ← character.natural?⟩
      let stop : Text.Position := ⟨← line'.natural?, ← character'.natural?⟩
      return (start, stop)
  | _ => none

/-- The finding that an object tells of. -/
def ofDatum? (d : Datum) : Option Row := do
  let code ← (← d.member? "code").text?
  let message ← (← d.member? "message").text?
  let severity ← (← d.member? "severity").text?
  let (start, stop) ← ends? (← d.member? "range")
  let category ← (← d.member? "category").optionalText?
  let hint ← (← d.member? "hint").optionalText?
  return { code, message, severity, start, stop, category, hint }

end Row

/-- The files of a report with the findings in each. -/
def Cli.reported? (d : Json.Datum) : Option (List (String × List Row)) := do
  let files ← d.members?
  files.entries.mapM fun (name, found) => do
    let rows ← (← found.items?).mapM Row.ofDatum?
    return (name, rows)

/-! ### Reading back -/

theorem Table.entries_ofList {α : Type} {entries : List (String × α)}
    (h : (entries.map Prod.fst).Nodup) : (Table.ofList entries).entries = entries :=
  congrArg Table.entries (Table.ofList_entries ⟨entries, h⟩)

theorem mapM_map_of_some {α β γ : Type} {write : α → β} {back : β → Option γ} {value : α → γ}
    (h : ∀ x, back (write x) = some (value x)) (xs : List α) :
    (xs.map write).mapM back = some (xs.map value) := by
  induction xs with
  | nil => rfl
  | cons x xs ih => simp [h, ih]

namespace Json

theorem natural?_number (n : Nat) : (Datum.number (mkRat n 1)).natural? = some n := by
  rw [Datum.natural?, Rat.mkRat_one]
  simp

theorem optionalText?_datum (s : Option String) : (datum (.ofOption s)).optionalText? = some s := by
  cases s with
  | none => rfl
  | some s => rfl

theorem itemData_eq_map (items : List Json) : itemData items = items.map datum := by
  induction items with
  | nil => rfl
  | cons item items ih => rw [itemData, ih, List.map_cons]

theorem fieldData_eq_map (fields : List (String × Json)) :
    fieldData fields = fields.map fun field => (field.1, datum field.2) := by
  induction fields with
  | nil => rfl
  | cons field fields ih => rw [fieldData, ih, List.map_cons]

theorem lookup_fieldData (name : String) (fields : List (String × Json)) :
    (fieldData fields).lookup name = (fields.lookup name).map datum := by
  induction fields with
  | nil => rfl
  | cons field fields ih =>
      rw [fieldData, List.lookup_cons, List.lookup_cons, ih]
      cases name == field.1 <;> rfl

/-- With distinct names, what is found under a name is what was written there. -/
theorem member?_datum {fields : List (String × Json)} (h : (fields.map Prod.fst).Nodup)
    (name : String) : (datum (.object fields)).member? name = (fields.lookup name).map datum := by
  have hkeys : ((fieldData fields).map Prod.fst).Nodup := by
    rw [fieldData_eq_map, List.map_map]
    exact h
  rw [datum, Datum.member?, Datum.members?, Option.bind_some, Table.find?,
    Table.entries_ofList hkeys, lookup_fieldData]

end Json

namespace Row

/-- The members of the object of a finding. -/
def fields (d : Diagnostic) : List (String × Json) :=
  [("code", .string d.code), ("message", .string d.message), ("severity", .string d.severity.name),
    ("range", .array [.number d.range.start.line, .number d.range.start.character,
      .number d.range.stop.line, .number d.range.stop.character]),
    ("category", .ofOption d.category), ("hint", .ofOption d.hint)]

theorem nodup_fields (d : Diagnostic) : ((fields d).map Prod.fst).Nodup := by
  change ["code", "message", "severity", "range", "category", "hint"].Nodup
  decide

/-- A finding is read back from its object. -/
theorem ofDatum?_datum (d : Diagnostic) :
    ofDatum? (Json.datum (Cli.jsonDiagnostic d)) = some d.row := by
  have hmember (name : String) : (Json.datum (Cli.jsonDiagnostic d)).member? name =
      ((fields d).lookup name).map Json.datum :=
    Json.member?_datum (nodup_fields d) name
  have hends : ends? (.array (Json.itemData [.number d.range.start.line,
      .number d.range.start.character, .number d.range.stop.line,
      .number d.range.stop.character])) = some (d.range.start, d.range.stop) := by
    simp [ends?, Json.itemData, Json.datum, Json.natural?_number]
  simp [ofDatum?, hmember, fields, List.lookup_cons, Json.datum, Json.Datum.text?, hends,
    Json.optionalText?_datum, Diagnostic.row]

end Row

namespace Cli

/-- The object of a report. -/
def document (results : Table (List Diagnostic)) : Json :=
  .object (results.entries.map fun (name, ds) => (name, .array (ds.map jsonDiagnostic)))

theorem toList_jsonReport (results : Table (List Diagnostic)) :
    (jsonReport results).toList = Json.renderAt 0 (document results) ++ ['\n'] := by
  simp [jsonReport, lines, Json.render, document]

theorem rows_datum (ds : List Diagnostic) :
    (Json.itemData (ds.map jsonDiagnostic)).mapM Row.ofDatum? = some (ds.map Diagnostic.row) := by
  rw [Json.itemData_eq_map, List.map_map]
  exact mapM_map_of_some Row.ofDatum?_datum ds

/-- A report is read back from its object. -/
theorem reported?_datum (results : Table (List Diagnostic)) :
    reported? (Json.datum (document results)) =
      some (results.entries.map fun (name, ds) => (name, ds.map Diagnostic.row)) := by
  -- no name is written twice, so the table of the members has all of them in their order
  have hkeys : ((Json.fieldData (results.entries.map fun (name, ds) =>
      (name, .array (ds.map jsonDiagnostic)))).map Prod.fst).Nodup := by
    rw [Json.fieldData_eq_map, List.map_map, List.map_map]
    exact results.distinct
  rw [document, Json.datum, reported?, Json.Datum.members?, Option.bind_eq_bind, Option.bind_some,
    Table.entries_ofList hkeys, Json.fieldData_eq_map, List.map_map]
  apply mapM_map_of_some
  intro entry
  simp [Json.datum, Json.Datum.items?, rows_datum]

/-- **The report in JSON loses nothing.**  Whatever the names of the files and the findings in them
hold, the text that is printed is ASCII, and a reader of JSON, which finds exactly the texts of the
grammar, gets back the same names in the same order, each with the same findings: code, message,
severity, both ends of the range, category and hint, of which the last two may be null.  This text
is what linting prints in that format, as long as every name on the list can name a file. -/
theorem json_report_loses_nothing (results : Table (List Diagnostic)) :
    Json.Ascii (jsonReport results).toList ∧
    (∃ datum, Json.read (jsonReport results).toList = some datum ∧
      reported? datum =
        some (results.entries.map fun (name, ds) => (name, ds.map Diagnostic.row))) ∧
    (∀ text datum, Json.read text = some datum ↔ Json.DenotesDocument text datum) ∧
    ∀ (reader : Reader) (level : Log.Level) (options : LintOptions),
      (∀ name ∈ options.files, '\x00' ∉ name.toList) →
        ∃ f, lintFiles reader { linting := options.linting } options.files = (.ok (), f) ∧
          (lint reader level { options with format := .json }).stdout = jsonReport f.results := by
  have hend : Json.Space ['\n'] := by
    intro c hc
    obtain rfl := List.mem_singleton.1 hc
    decide
  have hdocument : Json.DenotesDocument (jsonReport results).toList
      (Json.datum (document results)) := by
    rw [toList_jsonReport]
    exact .mk Json.space_nil (Json.denotes_renderAt 0 (document results)) hend
  refine ⟨?_, ⟨_, Json.read_eq_some_iff.2 hdocument, reported?_datum results⟩,
    fun _ _ => Json.read_eq_some_iff, ?_⟩
  · rw [toList_jsonReport, Json.ascii_append]
    exact ⟨Json.ascii_renderAt 0 (document results), by simp⟩
  · intro reader level options hnames
    obtain ⟨f, hlint, -⟩ := lintFiles_of_names reader { linting := options.linting } hnames
    refine ⟨f, hlint, ?_⟩
    unfold lint
    rw [hlint]
    rfl

end Cli

end Edl
