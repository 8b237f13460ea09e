/-
Which rule finds what.

A scan asks every rule about every line.  If all of them answer, the findings are the answers one
after another, line by line and on a line in the order of the rules; if one of them fails, the scan
fails too.  What a rule answers about a line depends on no other rule, so the outcome of a scan can
be read off the answers alone.

Main definitions:

* `Edl.Lint.Rule.Answers`, `Edl.Lint.Rule.answer` — a rule gives findings on a line, and which;
* `Edl.Lint.scanned` — the lines that a scan visits, with their numbers;
* `Edl.Lint.findingsOn` — the answers of all rules about a line.

Main results:

* `Edl.Lint.scanLine_eq_ok_iff`, `Edl.Lint.scanLines_eq_ok_iff` — when a scan succeeds, and with
  which findings;
* `Edl.Lint.run_eq_ok_iff` — **linting is asking every rule about every line**.
-/

import Edl.Proofs.Rescan

set_option relaxedAutoImplicit false
set_option autoImplicit false

namespace Edl.Lint

/-! ### Answers -/

/-- The rule does not fail on the line. -/
def Rule.Answers (rule : Rule) (line : String) (number : Nat) : Prop :=
  ∃ found, rule.run line number = .ok found

/-- What the rule finds on the line; nothing if it fails there. -/
def Rule.answer (rule : Rule) (line : String) (number : Nat) : List Diagnostic :=
  match rule.run line number with
  | .ok found => found
  | .error _ => []

theorem Rule.run_eq_ok_iff {rule : Rule} {line : String} {number : Nat} {found : List Diagnostic} :
    rule.run line number = .ok found ↔
      rule.Answers line number ∧ found = rule.answer line number := by
  constructor
  · intro h
    refine ⟨⟨found, h⟩, ?_⟩
    simp only [answer, h]
  · intro h
    obtain ⟨⟨other, hrun⟩, hfound⟩ := h
    simp only [answer, hrun] at hfound
    rw [hfound, hrun]

/-- The lines that a scan visits, each with its number: all, or none with linting switched off. -/
def scanned (text : String) (settings : Config.Settings) : List (String × Nat) :=
  if settings.linting then (Text.splitLines text).zipIdx else []

theorem scanned_of_linting {settings : Config.Settings} (h : settings.linting = true)
    (text : String) : scanned text settings = (Text.splitLines text).zipIdx := by
  rw [scanned, if_pos h]

theorem scanned_of_not_linting {settings : Config.Settings} (h : settings.linting = false)
    (text : String) : scanned text settings = [] := by
  simp [scanned, h]

/-- What a scan visits in its place `k` is line `k`. -/
theorem exists_line_of_scanned {text : String} {settings : Config.Settings} {k : Nat}
    {place : String × Nat} (h : (scanned text settings)[k]? = some place) :
    ∃ line, (Text.splitLines text)[k]? = some line ∧ place = (line, k) := by
  cases hlinting : settings.linting with
  | false => simp [scanned_of_not_linting hlinting] at h
  | true =>
      rw [scanned_of_linting hlinting, List.getElem?_zipIdx, Option.map_eq_some_iff] at h
      obtain ⟨line, hline, rfl⟩ := h
      exact ⟨line, hline, by rw [Nat.zero_add]⟩

/-- What the rules find on a numbered line, in their order. -/
def findingsOn (rules : List Rule) (place : String × Nat) : List Diagnostic :=
  rules.flatMap fun rule => rule.answer place.1 place.2

@[simp] theorem findingsOn_nil (place : String × Nat) : findingsOn [] place = [] := rfl

@[simp] theorem findingsOn_cons (rule : Rule) (rules : List Rule) (place : String × Nat) :
    findingsOn (rule :: rules) place = rule.answer place.1 place.2 ++ findingsOn rules place :=
  List.flatMap_cons

@[simp] theorem findingsOn_append (before after : List Rule) (place : String × Nat) :
    findingsOn (before ++ after) place = findingsOn before place ++ findingsOn after place :=
  List.flatMap_append

/-! ### Scans -/

/-- Two computations that are made one after the other, with the results put together. -/
theorem append_eq_ok_iff {first second : Except Fault (List Diagnostic)}
    {found : List Diagnostic} :
    (do
      let a ← first
      let b ← second
      return a ++ b) = Except.ok found ↔
      ∃ a b, first = .ok a ∧ second = .ok b ∧ found = a ++ b := by
  cases first with
  | error f => simp [bind, Except.bind]
  | ok a =>
      cases second with
      | error f => simp [bind, Except.bind]
      | ok b => simp [bind, Except.bind, pure, Except.pure, eq_comm]

section

variable {rules : List Rule} {found : List Diagnostic}

theorem scanLine_eq_ok_iff {line : String} {number : Nat} :
    scanLine line number rules = .ok found ↔
      (∀ rule ∈ rules, rule.Answers line number) ∧ found = findingsOn rules (line, number) := by
  induction rules generalizing found with
  | nil => simp [scanLine, eq_comm]
  | cons rule rules ih =>
      rw [scanLine, append_eq_ok_iff]
      simp only [Rule.run_eq_ok_iff, ih, List.forall_mem_cons, findingsOn_cons]
      constructor
      · intro h
        obtain ⟨a, b, ⟨hrule, rfl⟩, ⟨hrules, rfl⟩, hfound⟩ := h
        exact ⟨⟨hrule, hrules⟩, hfound⟩
      · intro h
        obtain ⟨⟨hrule, hrules⟩, hfound⟩ := h
        exact ⟨_, _, ⟨hrule, rfl⟩, ⟨hrules, rfl⟩, hfound⟩

theorem scanLines_eq_ok_iff {number : Nat} {lines : List String} :
    scanLines rules number lines = .ok found ↔
      (∀ place ∈ lines.zipIdx number, ∀ rule ∈ rules, rule.Answers place.1 place.2) ∧
        found = (lines.zipIdx number).flatMap (findingsOn rules) := by
  induction lines generalizing number found with
  | nil => simp [scanLines, eq_comm]
  | cons line lines ih =>
      rw [scanLines, append_eq_ok_iff]
      simp only [scanLine_eq_ok_iff, ih, List.zipIdx_cons, List.forall_mem_cons, List.flatMap_cons]
      constructor
      · intro h
        obtain ⟨a, b, ⟨hline, rfl⟩, ⟨hlines, rfl⟩, hfound⟩ := h
        exact ⟨⟨hline, hlines⟩, hfound⟩
      · intro h
        obtain ⟨⟨hline, hlines⟩, hfound⟩ := h
        exact ⟨_, _, ⟨hline, rfl⟩, ⟨hlines, rfl⟩, hfound⟩

end

/-! ### Linting -/

section

variable {text : String} {settings : Config.Settings} {rules : List Rule}

/-- A list that does not pass the check is refused before anything is scanned. -/
theorem run_of_refused (hlinting : settings.linting = true) {f : Fault}
    (h : checkRules rules = .error f) : run text settings rules = .error f := by
  rw [run, if_pos hlinting, h]
  rfl

theorem run_eq_ok_iff_of_linting (hlinting : settings.linting = true) {o : Outcome} :
    run text settings rules = .ok o ↔
      checkRules rules = .ok () ∧ ∃ found, scanLines rules 0 (Text.splitLines text) = .ok found ∧
        o = ⟨true, (Text.splitLines text).length, found⟩ := by
  cases hcheck : checkRules rules with
  | error f => simp [run_of_refused hlinting hcheck]
  | ok _ =>
      rw [run_of_linting hlinting hcheck]
      cases scanLines rules 0 (Text.splitLines text) with
      | error f => simp [Except.map]
      | ok found => simp [Except.map, eq_comm]

/-- **Linting is asking every rule about every line.** -/
theorem run_eq_ok_iff {o : Outcome} :
    run text settings rules = .ok o ↔
      (settings.linting = true → checkRules rules = .ok ()) ∧
        (∀ place ∈ scanned text settings, ∀ rule ∈ rules, rule.Answers place.1 place.2) ∧
          o = ⟨settings.linting, (scanned text settings).length,
            (scanned text settings).flatMap (findingsOn rules)⟩ := by
  cases hlinting : settings.linting with
  | false =>
      rw [run_of_not_linting hlinting, scanned_of_not_linting hlinting]
      simp [eq_comm]
  | true =>
      rw [run_eq_ok_iff_of_linting hlinting, scanned_of_linting hlinting, List.length_zipIdx]
      simp only [scanLines_eq_ok_iff, and_assoc, exists_and_left, exists_eq_left, true_imp_iff]

end

end Edl.Lint
