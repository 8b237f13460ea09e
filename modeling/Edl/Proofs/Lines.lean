/-
Cutting texts into lines and joining them again.

Cutting a text at a separator turns the separator into concatenation: the pieces of two texts with
the separator between them are the pieces of the first followed by the pieces of the second.  From
this it follows that cutting and gluing undo each other, as long as no piece holds the separator.

Main results:

* `Edl.Text.cutAt_append` — **cutting is a homomorphism**;
* `Edl.Text.glueWith_cutAt`, `Edl.Text.cutAt_glueWith` — cutting and gluing are inverse;
* `Edl.Text.splitLines_append`, `Edl.Text.joinLines_splitLines`, `Edl.Text.splitLines_joinLines` —
  the same for lines.
-/

import Edl.Text.Lines

set_option relaxedAutoImplicit false
set_option autoImplicit false

namespace Edl.Text

/-! ### Pieces -/

section

variable {separator : Char}

theorem cutAt_separator_cons (text : List Char) :
    cutAt separator (separator :: text) = [] :: cutAt separator text := by
  rw [cutAt, if_pos rfl]

/-- A character that is no separator joins the first piece. -/
theorem cutAt_cons_of_ne {c : Char} (hc : c ≠ separator) {text piece : List Char}
    {pieces : List (List Char)} (h : cutAt separator text = piece :: pieces) :
    cutAt separator (c :: text) = (c :: piece) :: pieces := by
  rw [cutAt, if_neg hc, h]

/-- **Cutting is a homomorphism**: a separator between two texts is a cut between their pieces. -/
theorem cutAt_append (separator : Char) (a b : List Char) :
    cutAt separator (a ++ separator :: b) = cutAt separator a ++ cutAt separator b := by
  induction a with
  | nil => exact cutAt_separator_cons b
  | cons c a ih =>
      by_cases hc : c = separator
      · subst hc
        rw [List.cons_append, cutAt_separator_cons, cutAt_separator_cons, ih, List.cons_append]
      · obtain ⟨piece, pieces, hcut⟩ := List.exists_cons_of_ne_nil (cutAt_ne_nil separator a)
        rw [hcut, List.cons_append] at ih
        rw [List.cons_append, cutAt_cons_of_ne hc ih, cutAt_cons_of_ne hc hcut, List.cons_append]

theorem cutAt_of_not_mem {text : List Char} (h : separator ∉ text) :
    cutAt separator text = [text] := by
  induction text with
  | nil => rfl
  | cons c text ih =>
      rw [List.mem_cons, not_or] at h
      exact cutAt_cons_of_ne (Ne.symm h.1) (ih h.2)

/-- No piece holds the separator. -/
theorem not_mem_of_mem_cutAt {text piece : List Char} (h : piece ∈ cutAt separator text) :
    separator ∉ piece := by
  induction text generalizing piece with
  | nil =>
      rw [cutAt_nil, List.mem_singleton] at h
      simp [h]
  | cons c text ih =>
      by_cases hc : c = separator
      · subst hc
        rw [cutAt_separator_cons, List.mem_cons] at h
        rcases h with rfl | h
        · simp
        · exact ih h
      · obtain ⟨first, pieces, hcut⟩ := List.exists_cons_of_ne_nil (cutAt_ne_nil separator text)
        rw [cutAt_cons_of_ne hc hcut, List.mem_cons] at h
        rw [hcut] at ih
        rcases h with rfl | h
        · have hfirst : separator ∉ first := ih (List.mem_cons_self ..)
          simp [hfirst, Ne.symm hc]
        · exact ih (List.mem_cons_of_mem _ h)

theorem glueWith_cons {piece : List Char} {pieces : List (List Char)} (h : pieces ≠ []) :
    glueWith separator (piece :: pieces) = piece ++ separator :: glueWith separator pieces := by
  cases pieces with
  | nil => exact absurd rfl h
  | cons next pieces => rfl

theorem glueWith_eq_intercalate (separator : Char) (pieces : List (List Char)) :
    glueWith separator pieces = [separator].intercalate pieces := by
  induction pieces with
  | nil => rfl
  | cons piece pieces ih =>
      cases pieces with
      | nil => simp [glueWith]
      | cons next pieces => simp [glueWith, ih]

/-- Gluing the pieces of a text gives the text back. -/
theorem glueWith_cutAt (separator : Char) (text : List Char) :
    glueWith separator (cutAt separator text) = text := by
  induction text with
  | nil => rfl
  | cons c text ih =>
      by_cases hc : c = separator
      · subst hc
        rw [cutAt_separator_cons, glueWith_cons (cutAt_ne_nil c text), ih]
        rfl
      · obtain ⟨piece, pieces, hcut⟩ := List.exists_cons_of_ne_nil (cutAt_ne_nil separator text)
        rw [hcut] at ih
        rw [cutAt_cons_of_ne hc hcut]
        cases pieces with
        | nil => exact congrArg (c :: ·) ih
        | cons next pieces => exact congrArg (c :: ·) ih

/-- Cutting what was glued gives the pieces back, if none of them holds the separator. -/
theorem cutAt_glueWith {pieces : List (List Char)} (hne : pieces ≠ [])
    (h : ∀ piece ∈ pieces, separator ∉ piece) :
    cutAt separator (glueWith separator pieces) = pieces := by
  induction pieces with
  | nil => exact absurd rfl hne
  | cons piece pieces ih =>
      have hpiece : cutAt separator piece = [piece] := cutAt_of_not_mem (h piece (by simp))
      by_cases hlast : pieces = []
      · subst hlast
        exact hpiece
      · rw [glueWith_cons hlast, cutAt_append, hpiece,
          ih hlast fun other hother => h other (List.mem_cons_of_mem _ hother)]
        rfl

end

/-! ### Lines -/

theorem splitLines_ne_nil (text : String) : splitLines text ≠ [] := by
  rw [splitLines, Ne, List.map_eq_nil_iff]
  exact cutAt_ne_nil '\n' text.toList

/-- The lines of two texts with a line feed between them. -/
theorem splitLines_append (a b : String) :
    splitLines (a ++ "\n" ++ b) = splitLines a ++ splitLines b := by
  have htext : (a ++ "\n" ++ b).toList = a.toList ++ '\n' :: b.toList := by
    rw [String.toList_append, String.toList_append, List.append_assoc]
    rfl
  rw [splitLines, htext, cutAt_append, List.map_append, splitLines, splitLines]

theorem not_mem_of_mem_splitLines {text line : String} (h : line ∈ splitLines text) :
    '\n' ∉ line.toList := by
  obtain ⟨piece, hpiece, rfl⟩ := List.mem_map.1 h
  rw [String.toList_ofList]
  exact not_mem_of_mem_cutAt hpiece

theorem joinLines_splitLines (text : String) : joinLines (splitLines text) = text := by
  rw [joinLines, splitLines, List.map_map]
  simp [Function.comp_def, glueWith_cutAt]

theorem splitLines_joinLines {lines : List String} (hne : lines ≠ [])
    (h : ∀ line ∈ lines, '\n' ∉ line.toList) : splitLines (joinLines lines) = lines := by
  have hpieces : ∀ piece ∈ lines.map String.toList, '\n' ∉ piece := by
    intro piece hpiece
    obtain ⟨line, hline, rfl⟩ := List.mem_map.1 hpiece
    exact h line hline
  rw [splitLines, joinLines, String.toList_ofList, cutAt_glueWith (by simpa using hne) hpieces,
    List.map_map]
  simp [Function.comp_def]

end Edl.Text
