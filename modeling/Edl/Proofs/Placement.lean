/-
Where the findings of a scan stand, and in which order.

A tidy rule reports at most one finding on a line, under its own code and inside that line, and it
never fails.  Scanning with tidy rules therefore always succeeds.  Its findings come line by line,
and on each line their codes are some of the codes of the rules, in the order of the rules; with
distinct codes, no code is reported twice on a line.  The built-in rules are tidy because their
checks are.

Main definitions:

* `Edl.Diagnostic.Marks` — a diagnostic on a stretch of one line;
* `Edl.Diagnostic.Precedes` — the order by line and by the place of the code in a list;
* `Edl.Lint.Rule.Tidy` — a rule with at most one finding on a line, inside it.

Main results:

* `Edl.Lint.scanLine_of_tidy`, `Edl.Lint.scanLines_of_tidy` — scanning with tidy rules;
* `Edl.Lint.tidy_defaultRules` — the built-in rules are tidy;
* `Edl.Lint.default_scan_is_tidy` — **scanning with the built-in rules succeeds, and its findings
  are well-placed, in order and without duplicates**.
-/

import Edl.Proofs.Findings
import Edl.Proofs.Rescan

set_option relaxedAutoImplicit false
set_option autoImplicit false

namespace Edl

/-! ### Diagnostics and their places -/

/-- The diagnostic marks at least one character of the line, which has the given number, and none
outside it. -/
structure Diagnostic.Marks (d : Diagnostic) (line : String) (number : Nat) : Prop where
  start_line : d.range.start.line = number
  stop_line : d.range.stop.line = number
  start_lt_stop : d.range.start.character < d.range.stop.character
  stop_le : d.range.stop.character ≤ line.length

/-- The first diagnostic is on an earlier line, or on the same line and its code is listed first. -/
def Diagnostic.Precedes (codes : List String) (d e : Diagnostic) : Prop :=
  d.range.start.line < e.range.start.line ∨
    d.range.start.line = e.range.start.line ∧ codes.idxOf d.code < codes.idxOf e.code

/-- In a list without duplicates, later items have larger indices. -/
theorem pairwise_idxOf_of_nodup {items : List String} (h : items.Nodup) :
    items.Pairwise fun a b => items.idxOf a < items.idxOf b := by
  induction items with
  | nil => exact .nil
  | cons item items ih =>
      obtain ⟨hnew, hrest⟩ := List.nodup_cons.1 h
      have hidx : ∀ a ∈ items, (item :: items).idxOf a = items.idxOf a + 1 := by
        intro a ha
        have hne : (item == a) = false := by
          rw [beq_eq_false_iff_ne]
          rintro rfl
          exact hnew ha
        rw [List.idxOf_cons, hne, cond_false]
      refine List.pairwise_cons.2 ⟨fun a ha => ?_, (ih hrest).imp_of_mem fun ha hb hlt => ?_⟩
      · rw [List.idxOf_cons_self, hidx a ha]
        exact Nat.succ_pos _
      · rw [hidx _ ha, hidx _ hb]
        exact Nat.succ_lt_succ hlt

namespace Lint

open Text

/-! ### Tidy rules -/

/-- A finding that fits its line can be placed there. -/
theorem Finding.Fits.place {f : Finding} {line : String} (hf : f.Fits line.toList)
    (number : Nat) :
    ∃ d, f.place number = .ok d ∧ d.code = f.template.code ∧
      d.severity = f.template.severity ∧ d.Marks line number := by
  obtain ⟨template, start, stop⟩ := f
  obtain ⟨hstart, hlt, hstop⟩ := hf
  dsimp only at hstart hlt hstop
  obtain ⟨start, rfl⟩ := Int.eq_ofNat_of_zero_le hstart
  obtain ⟨stop, rfl⟩ := Int.eq_ofNat_of_zero_le (Int.le_trans hstart (Int.le_of_lt hlt))
  rw [String.length_toList] at hstop
  have hle : start ≤ stop := Nat.le_of_lt (Int.ofNat_lt.1 hlt)
  let range : Range := ⟨⟨number, start⟩, ⟨number, stop⟩, Position.le_iff.2 (.inr ⟨rfl, hle⟩)⟩
  have hplace : Finding.place ⟨template, start, stop⟩ number = .ok (template.diagnostic range) := by
    unfold Finding.place
    dsimp only
    rw [Range.onLine_natCast hle]
    rfl
  exact ⟨_, hplace, rfl, rfl, ⟨rfl, rfl, Int.ofNat_lt.1 hlt, Int.ofNat_le.1 hstop⟩⟩

/-- The rule never fails, and on each line it reports at most one finding, which is inside the line
and has the code of the rule and a severity that counts. -/
def Rule.Tidy (rule : Rule) : Prop :=
  ∀ (line : String) (number : Nat), ∃ found, rule.run line number = .ok found ∧
    (found.map Diagnostic.code).Sublist [rule.code] ∧
    ∀ d ∈ found, d.severity.Counted ∧ d.Marks line number

theorem Check.Tidy.rule {check : Check} {code name domain confidence : String}
    (h : check.Tidy code) : (Rule.ofCheck code name domain confidence check).Tidy := by
  intro line number
  change ∃ found, check.report line number = .ok found ∧ _
  obtain ⟨found, hcheck, htidy⟩ := h line.toList
  cases found with
  | none => exact ⟨[], Check.report_of_none hcheck number, List.nil_sublist _, by simp⟩
  | some f =>
      obtain ⟨hfits, hcode, hseverity⟩ := htidy f rfl
      obtain ⟨d, hplace, hdcode, hdseverity, hmarks⟩ := hfits.place number
      refine ⟨[d], ?_, ?_, ?_⟩
      · rw [Check.report_of_some hcheck, hplace]
        rfl
      · rw [List.map_singleton, hdcode, hcode]
        exact List.Sublist.refl [code]
      · rintro e he
        obtain rfl := List.mem_singleton.1 he
        exact ⟨hdseverity ▸ hseverity, hmarks⟩

/-- The built-in rules are tidy. -/
theorem tidy_defaultRules : ∀ rule ∈ defaultRules, rule.Tidy := by
  simp only [defaultRules, List.forall_mem_cons]
  exact ⟨tidy_missingBracket.rule, tidy_invalidEventName.rule, tidy_missingSemicolon.rule,
    tidy_undefinedEvent.rule, tidy_selfTransition.rule, (tidy_lineTooLong 120).rule,
    tidy_mixedIndentation.rule, tidy_trailingWhitespace.rule, by simp⟩

theorem nodup_code_defaultRules : (defaultRules.map Rule.code).Nodup := by
  decide

theorem checkRules_defaultRules : checkRules defaultRules = .ok () := by
  rfl

/-! ### Scanning with tidy rules -/

section

variable {rules : List Rule}

/-- On one line, the codes of the findings are some of the codes of the rules, in order. -/
theorem scanLine_of_tidy (h : ∀ rule ∈ rules, rule.Tidy) (line : String) (number : Nat) :
    ∃ found, scanLine line number rules = .ok found ∧
      (found.map Diagnostic.code).Sublist (rules.map Rule.code) ∧
      ∀ d ∈ found, d.severity.Counted ∧ d.Marks line number := by
  induction rules with
  | nil => exact ⟨[], rfl, List.nil_sublist _, by simp⟩
  | cons rule rules ih =>
      obtain ⟨found, hrun, hcode, hfound⟩ := h rule (List.mem_cons_self ..) line number
      obtain ⟨others, hrest, hcodes, hothers⟩ := ih fun r hr => h r (List.mem_cons_of_mem _ hr)
      refine ⟨found ++ others, ?_, ?_, fun d hd => ?_⟩
      · rw [scanLine, hrun, hrest]
        rfl
      · rw [List.map_append, List.map_cons]
        exact hcode.append hcodes
      · rcases List.mem_append.1 hd with hd | hd
        · exact hfound d hd
        · exact hothers d hd

/-- With distinct codes, the findings on one line are in the order of the rules. -/
theorem precedes_of_scanLine (hcodes : (rules.map Rule.code).Nodup) {found : List Diagnostic}
    {line : String} {number : Nat}
    (hsublist : (found.map Diagnostic.code).Sublist (rules.map Rule.code))
    (hmarks : ∀ d ∈ found, d.Marks line number) :
    found.Pairwise (Diagnostic.Precedes (rules.map Rule.code)) := by
  have hindex := List.pairwise_map.1 ((pairwise_idxOf_of_nodup hcodes).sublist hsublist)
  refine hindex.imp_of_mem fun {d e} hd he hlt => .inr ⟨?_, hlt⟩
  rw [(hmarks d hd).start_line, (hmarks e he).start_line]

/-- Scanning lines with tidy rules of distinct codes: every finding is on one of the lines, and the
findings are in order. -/
theorem scanLines_of_tidy (h : ∀ rule ∈ rules, rule.Tidy) (hcodes : (rules.map Rule.code).Nodup)
    (number : Nat) (lines : List String) :
    ∃ found, scanLines rules number lines = .ok found ∧
      (∀ d ∈ found, d.code ∈ rules.map Rule.code ∧ d.severity.Counted ∧
        ∃ k line, lines[k]? = some line ∧ d.Marks line (number + k)) ∧
      found.Pairwise (Diagnostic.Precedes (rules.map Rule.code)) := by
  induction lines generalizing number with
  | nil => exact ⟨[], rfl, by simp, .nil⟩
  | cons line lines ih =>
      obtain ⟨found, hline, hsublist, hfound⟩ := scanLine_of_tidy h line number
      obtain ⟨others, hrest, hothers, hordered⟩ := ih (number + 1)
      refine ⟨found ++ others, ?_, fun d hd => ?_, List.pairwise_append.2
        ⟨precedes_of_scanLine hcodes hsublist fun d hd => (hfound d hd).2, hordered,
          fun d hd e he => .inl ?_⟩⟩
      · rw [scanLines, hline, hrest]
        rfl
      · rcases List.mem_append.1 hd with hd | hd
        · exact ⟨hsublist.subset (List.mem_map_of_mem hd), (hfound d hd).1, 0, line, rfl,
            (hfound d hd).2⟩
        · obtain ⟨hcode, hseverity, k, other, hk, hmarks⟩ := hothers d hd
          refine ⟨hcode, hseverity, k + 1, other, hk, ?_⟩
          rwa [Nat.add_comm k 1, ← Nat.add_assoc]
      · -- the rest of the lines have larger numbers
        obtain ⟨-, -, k, other, -, hmarks⟩ := hothers e he
        rw [(hfound d hd).2.start_line, hmarks.start_line]
        omega

end

end Lint

/-! ### Reports -/

/-- Findings of counted severities are all counted. -/
theorem tally_total {ds : List Diagnostic} (h : ∀ d ∈ ds, d.severity.Counted) :
    (tally ds).errors + (tally ds).warnings + (tally ds).information = ds.length := by
  induction ds with
  | nil => rfl
  | cons d ds ih =>
      have hrest := ih fun e he => h e (List.mem_cons_of_mem _ he)
      simp only [tally, List.countP_cons, List.length_cons] at hrest ⊢
      rcases h d (List.mem_cons_self ..) with hd | hd | hd <;> simp [hd] <;> omega

theorem hasErrors_iff (ds : List Diagnostic) : hasErrors ds = true ↔ 0 < (tally ds).errors := by
  simp [hasErrors, tally, List.countP_pos_iff]

/-- Diagnostics in order have no code twice on one line. -/
theorem nodup_of_precedes {codes : List String} {ds : List Diagnostic}
    (h : ds.Pairwise (Diagnostic.Precedes codes)) :
    (ds.map fun d => (d.range.start.line, d.code)).Nodup := by
  refine List.pairwise_map.2 (h.imp ?_)
  intro d e hprecedes heq
  obtain ⟨hline, hcode⟩ := Prod.mk.inj heq
  rcases hprecedes with hlt | ⟨-, hlt⟩
  · exact Nat.lt_irrefl _ (hline ▸ hlt)
  · exact Nat.lt_irrefl _ (hcode ▸ hlt)

namespace Lint

/-- **Scanning with the built-in rules always succeeds**, and each finding is a non-empty stretch
inside one line of the text.  The findings are strictly ordered by line and, on a line, by the place
of their code among the rules, so that no code is reported twice on a line; all have one of the
three severities that a report counts. -/
theorem default_scan_is_tidy (text : String) (settings : Config.Settings) :
    ∃ o, run text settings defaultRules = .ok o ∧
      (∀ d ∈ o.diagnostics, ∃ l line, l < o.lineCount ∧ (Text.splitLines text)[l]? = some line ∧
        d.range.start.line = l ∧ d.range.stop.line = l ∧
        d.range.start.character < d.range.stop.character ∧
        d.range.stop.character ≤ line.length) ∧
      (∀ d ∈ o.diagnostics, d.code ∈ defaultRules.map Rule.code) ∧
      o.diagnostics.Pairwise (fun d e =>
        d.range.start.line < e.range.start.line ∨
          d.range.start.line = e.range.start.line ∧
            (defaultRules.map Rule.code).idxOf d.code <
              (defaultRules.map Rule.code).idxOf e.code) ∧
      (o.diagnostics.map fun d => (d.range.start.line, d.code)).Nodup ∧
      (∀ d ∈ o.diagnostics,
        d.severity = .error ∨ d.severity = .warning ∨ d.severity = .information) ∧
      (tally o.diagnostics).errors + (tally o.diagnostics).warnings +
        (tally o.diagnostics).information = o.diagnostics.length ∧
      (hasErrors o.diagnostics = true ↔ 0 < (tally o.diagnostics).errors) := by
  cases hlinting : settings.linting with
  | false =>
      rw [run_of_not_linting hlinting]
      exact ⟨_, rfl, by simp, by simp, .nil, .nil, by simp, rfl, hasErrors_iff []⟩
  | true =>
      obtain ⟨found, hscan, hfound, hordered⟩ := scanLines_of_tidy tidy_defaultRules
        nodup_code_defaultRules 0 (Text.splitLines text)
      have hcounted : ∀ d ∈ found, d.severity.Counted := fun d hd => (hfound d hd).2.1
      rw [run_of_linting hlinting checkRules_defaultRules, hscan]
      refine ⟨_, rfl, fun d hd => ?_, fun d hd => (hfound d hd).1, hordered,
        nodup_of_precedes hordered, hcounted, tally_total hcounted, hasErrors_iff found⟩
      obtain ⟨-, -, l, line, hline, hmarks⟩ := hfound d hd
      rw [Nat.zero_add] at hmarks
      obtain ⟨hlt, -⟩ := List.getElem?_eq_some_iff.1 hline
      exact ⟨l, line, hlt, hline, hmarks.start_line, hmarks.stop_line, hmarks.start_lt_stop,
        hmarks.stop_le⟩

end Lint

end Edl
