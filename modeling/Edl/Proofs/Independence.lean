/-
Rules do not interfere with each other.

What a rule answers about a line does not depend on the other rules of the list, and a list of rules
gives on each line the answers of its members in their order.  So when rules are left out, what the
others find stays as it is and in its order, and the lists that remain are still valid.  When the
rules are given in another order, the findings on each line are the same in another order, and the
lines stay where they are.

Main definitions:

* `Edl.Lint.Outcome.Pages` — the findings of a scan, line by line.

Main results:

* `Edl.Lint.checkRules_sublist` — part of a valid list is valid;
* `Edl.Lint.run_of_subset` — rules that come from a list which scans a text scan it too;
* `Edl.Lint.rules_do_not_interfere` — **leaving rules out, adding one, and changing their order**.
-/

import Mathlib.Data.List.Flatten
import Mathlib.Data.List.Forall2
import Mathlib.Data.List.Perm.Basic
import Edl.Proofs.Blame

set_option relaxedAutoImplicit false
set_option autoImplicit false

namespace Edl.Lint

/-! ### Line by line -/

/-- The pages are the findings on the scanned lines, one page for each, and together they are all
findings. -/
structure Outcome.Pages (o : Outcome) (text : String) (rules : List Rule)
    (pages : List (List Diagnostic)) : Prop where
  length : pages.length = o.lineCount
  flatten : pages.flatten = o.diagnostics
  page : ∀ k found, pages[k]? = some found →
    ∃ line, (Text.splitLines text)[k]? = some line ∧ scanLine line k rules = .ok found

section

variable {text : String} {settings : Config.Settings} {rules other part : List Rule} {o : Outcome}

/-- The page of a scanned line. -/
theorem exists_line_of_page {k : Nat} {found : List Diagnostic}
    (h : ((scanned text settings).map (findingsOn rules))[k]? = some found) :
    ∃ line, (Text.splitLines text)[k]? = some line ∧
      (scanned text settings)[k]? = some (line, k) ∧ found = findingsOn rules (line, k) := by
  rw [List.getElem?_map, Option.map_eq_some_iff] at h
  obtain ⟨place, hplace, rfl⟩ := h
  obtain ⟨line, hline, rfl⟩ := exists_line_of_scanned hplace
  exact ⟨line, hline, hplace, rfl⟩

theorem pages_of_run (h : run text settings rules = .ok o) :
    o.Pages text rules ((scanned text settings).map (findingsOn rules)) := by
  obtain ⟨-, hanswers, rfl⟩ := run_eq_ok_iff.1 h
  refine ⟨by simp, List.flatMap_def.symm, ?_⟩
  intro k found hk
  obtain ⟨line, hline, hplace, rfl⟩ := exists_line_of_page hk
  exact ⟨line, hline, scanLine_eq_ok_iff.2 ⟨hanswers _ (List.mem_of_getElem? hplace), rfl⟩⟩

/-! ### Other lists of the same rules -/

/-- Part of a valid list is valid. -/
theorem checkRules_sublist (h : part.Sublist rules) (hrules : checkRules rules = .ok ()) :
    checkRules part = .ok () := by
  rw [checkRules_eq_ok_iff] at hrules ⊢
  obtain ⟨hadmissible, hnodup⟩ := hrules
  exact ⟨fun rule hrule => hadmissible rule (h.subset hrule), hnodup.sublist (h.map Rule.name)⟩

/-- Where a list of rules scans a text, so does every valid list of some of these rules. -/
theorem run_of_subset (h : run text settings rules = .ok o) (hsub : other ⊆ rules)
    (hvalid : checkRules rules = .ok () → checkRules other = .ok ()) :
    run text settings other = .ok ⟨o.enabled, o.lineCount,
      (scanned text settings).flatMap (findingsOn other)⟩ := by
  obtain ⟨hcheck, hanswers, rfl⟩ := run_eq_ok_iff.1 h
  refine run_eq_ok_iff.2 ⟨fun hlinting => hvalid (hcheck hlinting), ?_, rfl⟩
  intro place hplace rule hrule
  exact hanswers place hplace rule (hsub hrule)

theorem findingsOn_sublist (h : part.Sublist rules) (place : String × Nat) :
    (findingsOn part place).Sublist (findingsOn rules place) :=
  h.flatMap _

theorem findingsOn_perm (h : other.Perm rules) (place : String × Nat) :
    (findingsOn other place).Perm (findingsOn rules place) :=
  h.flatMap fun _ _ => .refl _

end

/-- **Rules do not interfere.**  If a list of rules scans a text, then so does every part of it, and
finds a subsequence; and so does the list in any other order, which finds the same on each line in
some other order, while the lines stay in order.  With one rule left out, what is found on each line
is what the rules before it find there and what the rules behind it find there, as it was with the
rule's own findings between them. -/
theorem rules_do_not_interfere {text : String} {settings : Config.Settings} {rules : List Rule}
    {o : Outcome} (h : run text settings rules = .ok o) :
    ∃ pages, o.Pages text rules pages ∧
      (∀ part, part.Sublist rules → ∃ p, run text settings part = .ok p ∧
        p.diagnostics.Sublist o.diagnostics) ∧
      (∀ other, other.Perm rules → ∃ p others, run text settings other = .ok p ∧
        p.Pages text other others ∧ List.Forall₂ List.Perm others pages) ∧
      ∀ before rule after, rules = before ++ rule :: after →
        ∃ p others, run text settings (before ++ after) = .ok p ∧
          p.Pages text (before ++ after) others ∧ p.lineCount = o.lineCount ∧
          ∀ k found, pages[k]? = some found → ∃ line first own last,
            (Text.splitLines text)[k]? = some line ∧ scanLine line k before = .ok first ∧
            rule.run line k = .ok own ∧ scanLine line k after = .ok last ∧
            found = first ++ own ++ last ∧ others[k]? = some (first ++ last) := by
  refine ⟨_, pages_of_run h, ?_, ?_, ?_⟩
  · intro part hpart
    refine ⟨_, run_of_subset h hpart.subset (checkRules_sublist hpart), ?_⟩
    obtain ⟨-, -, rfl⟩ := run_eq_ok_iff.1 h
    exact List.Sublist.flatMap_right _ fun place _ => findingsOn_sublist hpart place
  · intro other hperm
    have hrun := run_of_subset h hperm.subset (checkRules_perm hperm).2
    refine ⟨_, _, hrun, pages_of_run hrun, ?_⟩
    rw [List.forall₂_map_left_iff, List.forall₂_map_right_iff, List.forall₂_same]
    exact fun place _ => findingsOn_perm hperm place
  · intro before rule after hrules
    subst hrules
    have hpart : (before ++ after).Sublist (before ++ rule :: after) :=
      List.Sublist.append_left (List.sublist_cons_self rule after) before
    have hrun := run_of_subset h hpart.subset (checkRules_sublist hpart)
    refine ⟨_, _, hrun, pages_of_run hrun, rfl, ?_⟩
    intro k found hk
    obtain ⟨line, hline, hplace, rfl⟩ := exists_line_of_page hk
    obtain ⟨-, hanswers, -⟩ := run_eq_ok_iff.1 h
    have hall := hanswers _ (List.mem_of_getElem? hplace)
    rw [List.forall_mem_append, List.forall_mem_cons] at hall
    obtain ⟨hbefore, hrule, hafter⟩ := hall
    refine ⟨line, _, _, _, hline, scanLine_eq_ok_iff.2 ⟨hbefore, rfl⟩,
      Rule.run_eq_ok_iff.2 ⟨hrule, rfl⟩, scanLine_eq_ok_iff.2 ⟨hafter, rfl⟩, ?_, ?_⟩
    · simp
    · simp [List.getElem?_map, hplace]

theorem rules_do_not_interfere_swapped :
    ∃ o p q, run "abcd \nx " {} [lineTooLongRule 3, trailingWhitespaceRule] = .ok o ∧
      [trailingWhitespaceRule, lineTooLongRule 3].Perm [lineTooLongRule 3, trailingWhitespaceRule] ∧
      run "abcd \nx " {} [trailingWhitespaceRule, lineTooLongRule 3] = .ok p ∧
      (∃ pages others, o.Pages "abcd \nx " [lineTooLongRule 3, trailingWhitespaceRule] pages ∧
        p.Pages "abcd \nx " [trailingWhitespaceRule, lineTooLongRule 3] others ∧
        List.Forall₂ List.Perm others pages) ∧
      p.diagnostics.map Diagnostic.code =
        ["trailing-whitespace", "line-too-long", "trailing-whitespace"] ∧
      [trailingWhitespaceRule].Sublist [lineTooLongRule 3, trailingWhitespaceRule] ∧
      run "abcd \nx " {} [trailingWhitespaceRule] = .ok q ∧
      q.diagnostics.Sublist o.diagnostics := by
  obtain ⟨o, ho⟩ : ∃ o, run "abcd \nx " {} [lineTooLongRule 3, trailingWhitespaceRule] = .ok o :=
    ⟨_, rfl⟩
  have hperm : [trailingWhitespaceRule, lineTooLongRule 3].Perm
      [lineTooLongRule 3, trailingWhitespaceRule] := .swap ..
  have hpart : [trailingWhitespaceRule].Sublist [lineTooLongRule 3, trailingWhitespaceRule] :=
    List.sublist_cons_self ..
  obtain ⟨pages, hpages, hsome, horder, -⟩ := rules_do_not_interfere ho
  obtain ⟨p, others, hp, hothers, hsame⟩ := horder _ hperm
  obtain ⟨q, hq, hsublist⟩ := hsome _ hpart
  have hcodes : (run "abcd \nx " {} [trailingWhitespaceRule, lineTooLongRule 3]).map
      (·.diagnostics.map Diagnostic.code) =
        .ok ["trailing-whitespace", "line-too-long", "trailing-whitespace"] := rfl
  rw [hp] at hcodes
  exact ⟨o, p, q, ho, hperm, hp, ⟨pages, others, hpages, hothers, hsame⟩, Except.ok.inj hcodes,
    hpart, hq, hsublist⟩

end Edl.Lint
