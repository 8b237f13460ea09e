/-
Which lines are statements without a semicolon.

A trimmed line is read as a statement in one go: the name of a statement function, blanks, an
opening parenthesis, anything up to the first closing one, and then only blanks.  What is accepted
can be said without following that reading.  The line begins with a name, blanks and an opening
parenthesis, it ends in a closing parenthesis, and this is the only one it has.  Blanks at the end
are the one thing in which the two descriptions could differ, and a trimmed line has none.

Main definitions:

* `Edl.Lint.Statement` — the lines that are statements, told by their two ends;
* `Edl.Lint.Unterminated` — a line that is a statement between blanks, and has no semicolon.

Main results:

* `Edl.Lint.isArguments_iff`, `Edl.Lint.isStatement_iff` — what is read from left to right;
* `Edl.Lint.isStatement_iff_statement` — the same, told by the two ends;
* `Edl.Lint.missing_semicolon_marks_bare_statements` — **the report on a line**.
-/

import Edl.Proofs.Trim

set_option relaxedAutoImplicit false
set_option autoImplicit false

namespace Edl.Lint

open Text

/-! ### Reading from left to right -/

section

variable {text : List Char}

/-- Arguments are read up to the first closing parenthesis, behind which there are only blanks. -/
theorem isArguments_iff :
    isArguments text = true ↔
      ∃ arguments tail, text = '(' :: (arguments ++ ')' :: tail) ∧
        ')' ∉ arguments ∧ Blank tail := by
  constructor
  · intro h
    unfold isArguments at h
    split at h
    · next rest =>
        have hparts := List.takeWhile_append_dropWhile (p := (· != ')')) (l := rest)
        have hstop := List.head?_dropWhile_not (· != ')') rest
        split at h
        · next c tail hdrop =>
            rw [hdrop] at hparts hstop
            obtain rfl : c = ')' := by simpa using hstop
            refine ⟨_, tail, congrArg ('(' :: ·) hparts.symm, ?_, List.all_eq_true.1 h⟩
            intro hmem
            have hne := List.all_eq_true.1 List.all_takeWhile _ hmem
            simp at hne
        · cases h
    · cases h
  · rintro ⟨arguments, tail, rfl, hnot, htail⟩
    have hbefore : ∀ c ∈ arguments, (c != ')') = true := by
      intro c hc
      rw [bne_iff_ne]
      rintro rfl
      exact hnot hc
    have hdrop : (arguments ++ ')' :: tail).dropWhile (· != ')') = ')' :: tail := by
      rw [List.dropWhile_append_of_pos hbefore]
      rfl
    simp only [isArguments, hdrop]
    exact List.all_eq_true.2 htail

/-- A statement is a name, blanks and arguments. -/
theorem isStatement_iff :
    isStatement text = true ↔
      ∃ name ∈ statementFunctions, ∃ gap arguments tail,
        text = name ++ (gap ++ '(' :: (arguments ++ ')' :: tail)) ∧
          Blank gap ∧ ')' ∉ arguments ∧ Blank tail := by
  rw [isStatement, List.any_eq_true]
  refine exists_congr fun name => and_congr_right fun _ => ?_
  cases hname : after? name text with
  | none =>
      refine iff_of_false (by simp) ?_
      rintro ⟨gap, arguments, tail, htext, -⟩
      cases hname.symm.trans (after?_eq_some_iff.2 htext)
  | some rest =>
      obtain rfl := after?_eq_some_iff.1 hname
      dsimp only
      rw [isArguments_iff]
      constructor
      · rintro ⟨arguments, tail, hrest, hnot, htail⟩
        refine ⟨indent rest, arguments, tail, ?_, ?_, hnot, htail⟩
        · rw [← hrest, indent_append_trimStart]
        · exact List.all_eq_true.1 List.all_takeWhile
      · rintro ⟨gap, arguments, tail, htext, hgap, hnot, htail⟩
        obtain rfl := List.append_cancel_left htext
        refine ⟨arguments, tail, ?_, hnot, htail⟩
        rw [trimStart_blank_append hgap]
        rfl

end

/-! ### The two ends -/

/-- The text begins with the name of a statement function, any blanks and an opening parenthesis,
and its last character is its only closing parenthesis. -/
structure Statement (text : List Char) : Prop where
  opening : ∃ name ∈ ["emit", "listen", "schedule", "delay", "cancel"], ∃ gap, Blank gap ∧
    name.toList ++ gap ++ ['('] <+: text
  closing : [')'] <:+ text
  single : text.count ')' = 1

theorem mem_statementFunctions_iff {name : List Char} :
    name ∈ statementFunctions ↔
      ∃ word ∈ ["emit", "listen", "schedule", "delay", "cancel"], word.toList = name := by
  have hlist : statementFunctions =
      ["emit", "listen", "schedule", "delay", "cancel"].map String.toList := rfl
  rw [hlist, List.mem_map]

/-- Nothing in front of the arguments is a closing parenthesis. -/
theorem count_call {name gap rest : List Char} (hname : name ∈ statementFunctions)
    (hgap : Blank gap) : (name ++ (gap ++ '(' :: rest)).count ')' = rest.count ')' := by
  have hout : name.count ')' = 0 := by
    have hall : statementFunctions.all fun name => name.count ')' == 0 := rfl
    exact beq_iff_eq.1 (List.all_eq_true.1 hall name hname)
  have hskip : gap.count ')' = 0 := by
    refine List.count_eq_zero_of_not_mem ?_
    intro hmem
    exact absurd (hgap ')' hmem) (by decide)
  rw [List.count_append, hout, List.count_append, hskip, List.count_cons_of_ne (by decide)]
  omega

/-- On a text that does not end in a blank, reading from left to right accepts the statements. -/
theorem isStatement_iff_statement {text : List Char} (hend : VisibleEnd text) :
    isStatement text = true ↔ Statement text := by
  rw [isStatement_iff]
  constructor
  · rintro ⟨name, hname, gap, arguments, tail, rfl, hgap, hnot, htail⟩
    -- nothing follows the closing parenthesis, for it would have to be visible
    obtain rfl : tail = [] := by
      rcases List.eq_nil_or_concat tail with htail' | ⟨tail, c, rfl⟩
      · exact htail'
      · have hvisible := hend (name ++ (gap ++ '(' :: (arguments ++ ')' :: tail))) c (by simp)
        rw [htail c (by simp)] at hvisible
        cases hvisible
    obtain ⟨word, hword, rfl⟩ := mem_statementFunctions_iff.1 hname
    refine ⟨⟨word, hword, gap, hgap, arguments ++ [')'], by simp⟩,
      ⟨word.toList ++ (gap ++ '(' :: arguments), by simp⟩, ?_⟩
    rw [count_call hname hgap, List.count_append, List.count_eq_zero_of_not_mem hnot]
    rfl
  · rintro ⟨⟨word, hword, gap, hgap, rest, rfl⟩, hclosing, hsingle⟩
    have hname := mem_statementFunctions_iff.2 ⟨word, hword, rfl⟩
    rw [List.append_assoc, List.append_assoc, List.singleton_append] at hclosing hsingle ⊢
    rw [count_call hname hgap] at hsingle
    -- the closing parenthesis comes behind the opening one
    rcases List.eq_nil_or_concat rest with rfl | ⟨arguments, c, rfl⟩
    · cases hsingle
    · obtain rfl : c = ')' := by
        obtain ⟨front, hfront⟩ := hclosing
        have hlast : front ++ [')'] = word.toList ++ (gap ++ '(' :: arguments) ++ [c] := by
          simpa using hfront
        exact (List.cons.inj (List.append_inj' hlast rfl).2).1.symm
      rw [List.concat_eq_append, List.count_append, List.count_singleton_self] at hsingle
      refine ⟨word.toList, hname, gap, arguments, [], by simp, hgap, ?_, by simp [Blank]⟩
      exact List.count_eq_zero.1 (Nat.succ.inj hsingle)

/-! ### Reports -/

/-- The line has no semicolon, and without the blanks at its ends it is a statement. -/
def Unterminated (line : List Char) : Prop :=
  ';' ∉ line ∧ ∃ text, Trimmed line text ∧ Statement text

/-- A line has a finding when it is an unterminated statement. -/
theorem missingSemicolon_eq_some_iff {line : List Char} {f : Finding} :
    missingSemicolon line = .ok (some f) ↔
      Unterminated line ∧ f = .onLast Catalog.missingSemicolon line := by
  have hstatement : isStatement (trim line) = true ↔
      ∃ text, Trimmed line text ∧ Statement text := by
    rw [isStatement_iff_statement (trimmed_trim line).visibleEnd]
    simp only [trimmed_iff, exists_eq_left]
  have hcond : (line.contains ';' || !isStatement (trim line)) = true ↔ ¬Unterminated line := by
    rw [Bool.or_eq_true, List.contains_iff_mem, Bool.not_eq_true', ← Bool.not_eq_true, hstatement,
      Unterminated, Classical.not_and_iff_not_or_not, Classical.not_not]
  unfold missingSemicolon
  by_cases hline : Unterminated line
  · rw [if_neg (mt hcond.1 (not_not_intro hline)), Except.ok.injEq, Option.some_inj]
    simp only [hline, true_and, eq_comm]
  · rw [if_pos (hcond.2 hline)]
    simp [hline]

theorem Finding.range_onLast (template : Template) (line : List Char) (number : Nat) :
    (onLast template line).range number = .stretch number (line.length - 1) 1 := by
  have hstart : ((line.length : Int) - 1).toNat = line.length - 1 := by omega
  have hlength : ((line.length : Int) - (line.length - 1)).toNat = 1 := by omega
  simp only [Finding.range, onLast, hstart, hlength]

/-- **The check of semicolons reports exactly the bare statements.**  A line is reported if it has
no semicolon and, without the blanks at its ends, begins with the name of a statement function,
blanks and an opening parenthesis, and has its only closing parenthesis at its end.  There is then
one finding, on the last character of the line with its blanks; on any other line there is none. -/
theorem missing_semicolon_marks_bare_statements (line : String) (number : Nat) :
    (Unterminated line.toList ↔
      missingSemicolonRule.run line number =
        .ok [Catalog.missingSemicolon.diagnostic (.stretch number (line.length - 1) 1)]) ∧
    (¬Unterminated line.toList ↔ missingSemicolonRule.run line number = .ok []) := by
  have hfinds : ∀ f, missingSemicolon line.toList = .ok (some f) ↔
      Unterminated line.toList ∧ f = .onLast Catalog.missingSemicolon line.toList :=
    fun _ => missingSemicolon_eq_some_iff
  have hreport := tidy_missingSemicolon.report_iff hfinds number
  rw [Finding.range_onLast, String.length_toList] at hreport
  exact hreport

example : missingSemicolonRule.run " schedule\t((a, \n(b) \x0c" 2 =
    .ok [Catalog.missingSemicolon.diagnostic (.stretch 2 20 1)] := by
  rfl

example : missingSemicolonRule.run "emit(f(x))" 2 = .ok [] := by
  rfl

end Edl.Lint
