/-
What trimming a line leaves.

Trimming takes blanks away from both ends of a line and nothing else, and it takes all of them: the
line is the trimmed text with blanks around it, and that text neither starts nor ends in a blank.
These properties leave no choice, so a statement about a trimmed line need not say how it is made.

Main definitions:

* `Edl.Text.VisibleStart`, `Edl.Text.VisibleEnd` — texts that do not start, or end, in a blank;
* `Edl.Text.Trimmed` — a line without the blanks at its ends.

Main results:

* `Edl.Text.exists_eq_trimEnd_append`, `Edl.Text.visibleEnd_trimEnd` — trimming the end;
* `Edl.Text.trimmed_iff` — **the trimmed line is what trimming gives**.
-/

import Edl.Proofs.Margin

set_option relaxedAutoImplicit false
set_option autoImplicit false

namespace Edl.Text

/-- The text does not start in a blank. -/
def VisibleStart (text : List Char) : Prop :=
  ∀ c rest, text = c :: rest → isBlank c = false

/-- The text does not end in a blank. -/
def VisibleEnd (text : List Char) : Prop :=
  ∀ rest c, text = rest ++ [c] → isBlank c = false

/-- The text is the line without the blanks at its ends. -/
structure Trimmed (line text : List Char) : Prop where
  between : ∃ front back, Blank front ∧ Blank back ∧ line = front ++ text ++ back
  visibleStart : VisibleStart text
  visibleEnd : VisibleEnd text

section

variable {line text : List Char}

/-! ### The end of a line -/

/-- Trimming the end takes only blanks away. -/
theorem exists_eq_trimEnd_append (line : List Char) :
    ∃ back, Blank back ∧ line = trimEnd line ++ back := by
  induction line with
  | nil => exact ⟨[], by simp [Blank], rfl⟩
  | cons c rest ih =>
      obtain ⟨back, hback, hrest⟩ := ih
      rw [trimEnd]
      cases hkept : trimEnd rest with
      | cons d kept =>
          rw [hkept] at hrest
          exact ⟨back, hback, congrArg (c :: ·) hrest⟩
      | nil =>
          rw [hkept, List.nil_append] at hrest
          subst hrest
          dsimp only
          split
          · next hc => exact ⟨c :: rest, List.forall_mem_cons.2 ⟨hc, hback⟩, rfl⟩
          · exact ⟨rest, hback, rfl⟩

/-- Trimming the end takes all blanks there away. -/
theorem visibleEnd_trimEnd (line : List Char) : VisibleEnd (trimEnd line) := by
  induction line with
  | nil =>
      intro rest c h
      simp at h
  | cons d line ih =>
      intro rest c h
      rw [trimEnd] at h
      split at h
      · split at h
        · simp at h
        · next hd =>
            obtain rfl : d = c := by simpa using congrArg List.getLast? h
            simpa using hd
      · next e kept hkept =>
          -- the last character is not the first
          cases rest with
          | nil => simp at h
          | cons d' rest => exact ih rest c (hkept.trans (List.cons.inj h).2)

theorem trimEnd_of_visibleEnd (h : VisibleEnd text) : trimEnd text = text := by
  obtain ⟨back, hback, htext⟩ := exists_eq_trimEnd_append text
  rcases List.eq_nil_or_concat back with rfl | ⟨back, c, rfl⟩
  · rw [List.append_nil] at htext
    exact htext.symm
  · rw [List.concat_eq_append, ← List.append_assoc] at htext
    have hvisible := h _ c htext
    rw [hback c (by simp)] at hvisible
    cases hvisible

/-! ### The start of a line -/

theorem visibleStart_trimStart (line : List Char) : VisibleStart (trimStart line) := by
  intro c rest h
  have hhead := List.head?_dropWhile_not isBlank line
  have hline : line.dropWhile isBlank = c :: rest := h
  rw [hline] at hhead
  simpa using hhead

theorem trimStart_of_visibleStart (h : VisibleStart text) : trimStart text = text := by
  cases text with
  | nil => rfl
  | cons c rest => exact List.dropWhile_cons_of_neg (by simp [h c rest rfl])

/-! ### Both ends -/

/-- Trimming gives the line without the blanks at its ends. -/
theorem trimmed_trim (line : List Char) : Trimmed line (trim line) := by
  obtain ⟨back, hback, hstart⟩ := exists_eq_trimEnd_append (trimStart line)
  refine ⟨⟨indent line, back, ?_, hback, ?_⟩, ?_, visibleEnd_trimEnd _⟩
  · exact List.all_eq_true.1 List.all_takeWhile
  · rw [List.append_assoc, trim, ← hstart, indent_append_trimStart]
  · -- what the end loses is not at the start
    intro c rest htrim
    refine visibleStart_trimStart line c (rest ++ back) ?_
    rw [hstart]
    exact congrArg (· ++ back) htrim

/-- Only one text is the line without the blanks at its ends. -/
theorem Trimmed.eq_trim (h : Trimmed line text) : text = trim line := by
  obtain ⟨⟨front, back, hfront, hback, rfl⟩, hstart, hend⟩ := h
  rw [trim_between hfront hback, trim, trimStart_of_visibleStart hstart, trimEnd_of_visibleEnd hend]

/-- The trimmed line is what trimming gives. -/
theorem trimmed_iff : Trimmed line text ↔ text = trim line := by
  constructor
  · intro h
    exact h.eq_trim
  · rintro rfl
    exact trimmed_trim line

end

end Edl.Text
