/-
The blanks at both ends of a line.

One check of style looks at the blanks that open a line and one at the blanks that close it.  Both
runs are described here by their ends alone: a run cannot be made longer.  Whether there are blanks
at the end is decided by looking for a pattern, some blanks and then the end of the line, where the
end also counts as reached in front of a last line feed.  A line feed is itself a blank, so this
leeway finds nothing that trimming would not take away.  The two runs meet only if there is nothing
between them, and then each of them is the whole line.

Main definitions:

* `Edl.Text.Closing` — from a place on, the longest run of blanks at the end of a line;
* `Edl.Text.BlanksToEnd` — a match of the pattern for blanks at the end;
* `Edl.Text.EndsBlank` — the last character of a line is blank;
* `Edl.Text.Range.Covers` — the positions in a range, its end not included.

Main results:

* `Edl.Text.closing_trimEnd` — trimming the end of a line takes the longest run of blanks away;
* `Edl.Text.Closing.exists_blanksToEnd_iff`, `Edl.Text.Closing.endsBlank_iff` — three ways to say
  that there is such a run;
* `Edl.Text.Closing.lt_iff_blank` — when the runs at both ends overlap;
* `Edl.Lint.whitespace_rules_mark_the_fringes` — **the reports on a line**.
-/

import Edl.Proofs.Span
import Edl.Proofs.Trim

set_option relaxedAutoImplicit false
set_option autoImplicit false

namespace Edl

namespace Text

/-! ### The end of a line -/

/-- All characters from `start` on are blank, and the one in front of them, if there is one, is
not. -/
structure Closing (line : List Char) (start : Nat) : Prop where
  span : Span isBlank line start line.length
  opened : ∀ k, k + 1 = start → ¬At isBlank line k

/-- The last character of the line is blank. -/
def EndsBlank (line : List Char) : Prop :=
  ∃ front c, line = front ++ [c] ∧ isBlank c = true

/-- Blanks, at least one, from `start` up to `stop`, which is the end of the line or the place in
front of a line feed that ends it. -/
structure BlanksToEnd (text : List Char) (start stop : Nat) : Prop where
  nonempty : start < stop
  blank : ∀ k, start ≤ k → k < stop → At isBlank text k
  anchored : stop = text.length ∨ (stop + 1 = text.length ∧ text[stop]? = some '\n')

section

variable {line : List Char} {m n : Nat}

theorem not_at_length {kind : Char → Bool} (text : List Char) : ¬At kind text text.length :=
  fun h => Nat.lt_irrefl _ h.lt_length

/-- A text of blanks has a blank at every place. -/
theorem blank_iff_at : Blank line ↔ ∀ k < line.length, At isBlank line k := by
  constructor
  · intro h k hk
    exact ⟨_, List.getElem?_eq_getElem hk, h _ (List.getElem_mem hk)⟩
  · intro h c hc
    obtain ⟨k, hk, rfl⟩ := List.mem_iff_getElem.1 hc
    exact (at_iff_of_getElem? (List.getElem?_eq_getElem hk)).1 (h k hk)

/-- A line ends in a blank if there is one at its last place. -/
theorem endsBlank_iff_at : EndsBlank line ↔ ∃ k, k + 1 = line.length ∧ At isBlank line k := by
  constructor
  · rintro ⟨front, c, rfl, hc⟩
    exact ⟨front.length, by simp, c, by simp, hc⟩
  · rintro ⟨k, hk, c, hget, hc⟩
    refine ⟨line.take k, c, ?_, hc⟩
    have hlast : line.drop k = [c] :=
      drop_eq_cons_iff.2 ⟨hget, (List.drop_eq_nil_of_le (Nat.le_of_eq hk.symm)).symm⟩
    rw [← hlast, List.take_append_drop]

/-- Trimming the end of a line takes the longest run of blanks away. -/
theorem closing_trimEnd (line : List Char) : Closing line (trimEnd line).length := by
  obtain ⟨back, hback, hline⟩ := exists_eq_trimEnd_append line
  refine ⟨⟨length_trimEnd_le line, fun k hk hlt => ?_, not_at_length line⟩, fun k hk hat => ?_⟩
  · have hlength := congrArg List.length hline
    rw [List.length_append] at hlength
    have hblank := blank_iff_at.1 hback (k - (trimEnd line).length) (by omega)
    obtain ⟨c, hc, hkind⟩ := hblank
    refine ⟨c, ?_, hkind⟩
    rw [hline, List.getElem?_append_right hk]
    exact hc
  · -- the last character that is left is visible
    obtain ⟨c, hc, hkind⟩ := hat
    rw [hline, List.getElem?_append_left (by omega)] at hc
    obtain ⟨front, d, hkept, hd⟩ : EndsBlank (trimEnd line) :=
      endsBlank_iff_at.2 ⟨k, hk, c, hc, hkind⟩
    have hvisible := visibleEnd_trimEnd line front d hkept
    rw [hd] at hvisible
    cases hvisible

namespace Closing

/-- There are blanks at the end of a line if there is one at its last place. -/
theorem lt_iff_at (h : Closing line n) :
    n < line.length ↔ ∃ k, k + 1 = line.length ∧ At isBlank line k := by
  constructor
  · intro hlt
    exact ⟨line.length - 1, by omega, h.span.inside _ (by omega) (by omega)⟩
  · rintro ⟨k, hk, hat⟩
    refine Nat.lt_of_le_of_ne h.span.le ?_
    rintro rfl
    exact h.opened k hk hat

theorem endsBlank_iff (h : Closing line n) : EndsBlank line ↔ n < line.length := by
  rw [h.lt_iff_at, endsBlank_iff_at]

/-- The pattern for blanks at the end is found if there are any. -/
theorem exists_blanksToEnd_iff (h : Closing line n) :
    (∃ start stop, BlanksToEnd line start stop) ↔ n < line.length := by
  constructor
  · rintro ⟨start, stop, hnonempty, hblank, hend⟩
    rw [h.lt_iff_at]
    rcases hend with hend | ⟨hend, hfeed⟩
    · exact ⟨stop - 1, by omega, hblank _ (by omega) (by omega)⟩
    · -- the line feed behind the match is itself a blank
      exact ⟨stop, hend, '\n', hfeed, by decide⟩
  · intro hlt
    exact ⟨n, line.length, hlt, h.span.inside, .inl rfl⟩

/-- Both runs of a line of blanks are the whole line. -/
theorem of_blank (h : Closing line n) (hspan : Span isBlank line 0 m) (hblank : Blank line) :
    n = 0 ∧ m = line.length := by
  rw [blank_iff_at] at hblank
  have hle := h.span.le
  refine ⟨?_, hspan.unique ⟨Nat.zero_le _, fun k _ => hblank k, not_at_length line⟩⟩
  cases n with
  | zero => rfl
  | succ k => exact absurd (hblank k (by omega)) (h.opened k rfl)

/-- The runs at both ends overlap if there is nothing but blanks. -/
theorem lt_iff_blank (h : Closing line n) (hspan : Span isBlank line 0 m) (hlt : n < line.length) :
    n < m ↔ Blank line := by
  constructor
  · intro hnm
    rw [blank_iff_at]
    intro k hk
    rcases Nat.lt_or_ge k m with hkm | hmk
    · exact hspan.inside k (Nat.zero_le k) hkm
    · exact h.span.inside k (by omega) hk
  · intro hblank
    obtain ⟨rfl, rfl⟩ := h.of_blank hspan hblank
    exact hlt

end Closing

end

/-! ### Positions in a range -/

/-- The position is in the range, and not just at its end. -/
def Range.Covers (r : Range) (p : Position) : Prop :=
  r.start ≤ p ∧ p < r.stop

theorem Range.covers_stretch_iff {line start length : Nat} {p : Position} :
    (stretch line start length).Covers p ↔
      p.line = line ∧ start ≤ p.character ∧ p.character < start + length := by
  simp only [Covers, stretch, Position.le_iff, Position.lt_iff]
  omega

/-- The ranges of the runs at both ends have a position in common if there is nothing but
blanks. -/
theorem Closing.exists_covers_iff {line : List Char} {m n : Nat} (h : Closing line n)
    (hspan : Span isBlank line 0 m) (hlt : n < line.length) (number : Nat) :
    (∃ p, (Range.stretch number 0 m).Covers p ∧
      (Range.stretch number n (line.length - n)).Covers p) ↔ Blank line := by
  rw [← h.lt_iff_blank hspan hlt]
  simp only [Range.covers_stretch_iff]
  constructor
  · rintro ⟨p, ⟨-, -, hm⟩, -, hn, -⟩
    omega
  · intro hnm
    refine ⟨⟨number, n⟩, ⟨rfl, ?_, ?_⟩, rfl, ?_, ?_⟩ <;> dsimp only <;> omega

end Text

namespace Lint

open Text

variable {line : List Char} {f : Finding}

/-! ### Findings -/

theorem endsInBlank_iff : endsInBlank line = true ↔ EndsBlank line := by
  rcases List.eq_nil_or_concat line with rfl | ⟨front, c, rfl⟩
  · simp [endsInBlank, EndsBlank]
  · rw [List.concat_eq_append]
    simp only [endsInBlank, List.getLast?_append, List.getLast?_singleton, Option.some_or]
    constructor
    · intro hc
      exact ⟨front, c, rfl, hc⟩
    · rintro ⟨front', d, heq, hd⟩
      obtain rfl := (List.cons.inj (List.append_inj' heq rfl).2).1
      exact hd

theorem trailingWhitespace_eq_some_iff :
    trailingWhitespace line = .ok (some f) ↔ EndsBlank line ∧
      f = ⟨Catalog.trailingWhitespace, (trimEnd line).length, line.length⟩ := by
  rw [← endsInBlank_iff, trailingWhitespace]
  split
  · next hblank => simp [hblank, eq_comm]
  · next hvisible => simp [hvisible]

theorem mixedIndentation_eq_some_iff :
    mixedIndentation line = .ok (some f) ↔ ('\t' ∈ indent line ∧ ' ' ∈ indent line) ∧
      f = .onAll Catalog.mixedIndentation (indent line) := by
  rw [mixedIndentation]
  simp only [Bool.and_eq_true, List.contains_iff_mem]
  split
  · next hmixed => simp [hmixed, eq_comm]
  · next hpure => simp [hpure]

/-! ### Reports -/

/-- The check of the end of a line reports if the line ends in a blank. -/
theorem trailingWhitespaceRule_run_iff (line : String) (number : Nat) :
    (EndsBlank line.toList ↔ trailingWhitespaceRule.run line number =
      .ok [Catalog.trailingWhitespace.diagnostic (.stretch number (trimEnd line.toList).length
        (line.length - (trimEnd line.toList).length))]) ∧
    (¬EndsBlank line.toList ↔ trailingWhitespaceRule.run line number = .ok []) := by
  have hfinds : ∀ f, trailingWhitespace line.toList = .ok (some f) ↔ EndsBlank line.toList ∧
      f = ⟨Catalog.trailingWhitespace, (trimEnd line.toList).length, line.toList.length⟩ :=
    fun _ => trailingWhitespace_eq_some_iff
  have hreport := tidy_trailingWhitespace.report_iff hfinds number
  rw [Finding.range, Int.toNat_natCast, Int.toNat_sub, String.length_toList] at hreport
  exact hreport

/-- The check of the indentation reports if there are a tabulator and a space in it. -/
theorem mixedIndentationRule_run_iff (line : String) (number : Nat) :
    ('\t' ∈ indent line.toList ∧ ' ' ∈ indent line.toList ↔
      mixedIndentationRule.run line number = .ok [Catalog.mixedIndentation.diagnostic
        (.stretch number 0 (indent line.toList).length)]) ∧
    (¬('\t' ∈ indent line.toList ∧ ' ' ∈ indent line.toList) ↔
      mixedIndentationRule.run line number = .ok []) := by
  have hfinds : ∀ f, mixedIndentation line.toList = .ok (some f) ↔
      ('\t' ∈ indent line.toList ∧ ' ' ∈ indent line.toList) ∧
        f = .onAll Catalog.mixedIndentation (indent line.toList) :=
    fun _ => mixedIndentation_eq_some_iff
  have hreport := tidy_mixedIndentation.report_iff hfinds number
  rw [Finding.range, Finding.onAll, Int.toNat_zero, Int.sub_zero, Int.toNat_natCast] at hreport
  exact hreport

/-- The one finding of a report that is known. -/
theorem eq_of_report {reports : Prop} {result : Except Fault (List Diagnostic)} {d e : Diagnostic}
    (h : (reports ↔ result = .ok [e]) ∧ (¬reports ↔ result = .ok [])) (hd : result = .ok [d]) :
    reports ∧ d = e := by
  have hreports : reports := by
    refine Classical.byContradiction fun hnot => ?_
    have hnone := hd.symm.trans (h.2.1 hnot)
    simp at hnone
  have heq := hd.symm.trans (h.1.1 hreports)
  simp only [Except.ok.injEq, List.cons.injEq, and_true] at heq
  exact ⟨hreports, heq⟩

/-- **The checks of blanks at the ends of a line mark the longest runs.**  There are places where
the blanks that open the line stop and where those that close it start.  The check of the end
reports if and only if the last character is blank, which is the case exactly if the pattern for
blanks at the end is found, and exactly if trimming makes the line shorter; it marks what comes from
the second place on.  The check of the indentation reports if and only if there are a tabulator and
a space in front of the first place, and marks all that is in front of it.  If both report, then
their marks have a position in common if and only if the line is all blank, and then both are the
whole line. -/
theorem whitespace_rules_mark_the_fringes (line : String) (number : Nat) :
    ∃ first last, Span isBlank line.toList 0 first ∧ Closing line.toList last ∧
      ((∃ start stop, BlanksToEnd line.toList start stop) ↔ EndsBlank line.toList) ∧
      ((trimEnd line.toList).length < line.length ↔ EndsBlank line.toList) ∧
      (EndsBlank line.toList ↔ trailingWhitespaceRule.run line number =
        .ok [Catalog.trailingWhitespace.diagnostic (.stretch number last (line.length - last))]) ∧
      (¬EndsBlank line.toList ↔ trailingWhitespaceRule.run line number = .ok []) ∧
      ('\t' ∈ line.toList.take first ∧ ' ' ∈ line.toList.take first ↔
        mixedIndentationRule.run line number =
          .ok [Catalog.mixedIndentation.diagnostic (.stretch number 0 first)]) ∧
      (¬('\t' ∈ line.toList.take first ∧ ' ' ∈ line.toList.take first) ↔
        mixedIndentationRule.run line number = .ok []) ∧
      ∀ d e, mixedIndentationRule.run line number = .ok [d] →
        trailingWhitespaceRule.run line number = .ok [e] →
          ((∃ p, d.range.Covers p ∧ e.range.Covers p) ↔ Blank line.toList) ∧
          (Blank line.toList → d.range = .stretch number 0 line.length ∧
            e.range = .stretch number 0 line.length) := by
  have hspan : Span isBlank line.toList 0 (indent line.toList).length := span_takeWhile _ _
  have hclosing := closing_trimEnd line.toList
  have hindent : line.toList.take (indent line.toList).length = indent line.toList :=
    (List.prefix_iff_eq_take.1 (List.takeWhile_prefix isBlank)).symm
  have htrailing := trailingWhitespaceRule_run_iff line number
  have hmixed := mixedIndentationRule_run_iff line number
  refine ⟨_, _, hspan, hclosing, ?_, ?_, htrailing.1, htrailing.2, ?_, ?_, ?_⟩
  · rw [hclosing.exists_blanksToEnd_iff, hclosing.endsBlank_iff]
  · rw [hclosing.endsBlank_iff, String.length_toList]
  · rw [hindent]
    exact hmixed.1
  · rw [hindent]
    exact hmixed.2
  · intro d e hd he
    obtain ⟨-, rfl⟩ := eq_of_report hmixed hd
    obtain ⟨hends, rfl⟩ := eq_of_report htrailing he
    have hlt := hclosing.endsBlank_iff.1 hends
    rw [← String.length_toList]
    refine ⟨hclosing.exists_covers_iff hspan hlt number, fun hblank => ?_⟩
    obtain ⟨hlast, hfirst⟩ := hclosing.of_blank hspan hblank
    rw [hlast, hfirst]
    exact ⟨rfl, rfl⟩

example : trailingWhitespaceRule.run "a\n \u00a0\n" 3 =
    .ok [Catalog.trailingWhitespace.diagnostic (.stretch 3 1 4)] := by
  rfl

example : mixedIndentationRule.run " \n\tstate" 3 =
    .ok [Catalog.mixedIndentation.diagnostic (.stretch 3 0 3)] := by
  rfl

end Lint

end Edl
