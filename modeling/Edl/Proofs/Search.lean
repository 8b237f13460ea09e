/-
What searching a text finds.

A recogniser is tried at every place of a text from left to right, and so is a fixed text that is
looked for.  The two theorems of this module say what the answers mean in terms of prefixes and
suffixes of the text alone, so that nothing later has to follow the search step by step.

Main results:

* `Edl.Text.firstMatch_eq_some_iff` — the answer comes from the leftmost place that has one;
* `Edl.Text.indexOf?_eq_some_iff` — the index is the least at which the text occurs;
* `Edl.Text.exists_indexOf?_of_infix`, `Edl.Text.occurs_iff` — what is part of a text, and nothing
  else, is found in it.
-/

import Edl.Text.Search

set_option relaxedAutoImplicit false
set_option autoImplicit false

namespace Edl.Text

/-! ### Recognisers -/

/-- A match is the answer at a place such that there is none at any place further left. -/
theorem firstMatch_eq_some_iff {α : Type} {recognise : List Char → Option α} {text : List Char}
    {answer : α} :
    firstMatch recognise text = some answer ↔
      ∃ before rest, text = before ++ rest ∧ recognise rest = some answer ∧
        ∀ far near, before = far ++ near → near ≠ [] → recognise (near ++ rest) = none := by
  induction text with
  | nil =>
      rw [firstMatch]
      constructor
      · intro h
        exact ⟨[], [], rfl, h, by simp⟩
      · rintro ⟨before, rest, htext, h, -⟩
        obtain ⟨-, rfl⟩ := List.append_eq_nil_iff.1 htext.symm
        exact h
  | cons c text ih =>
      rw [firstMatch]
      cases hhere : recognise (c :: text) with
      | some found =>
          constructor
          · rintro ⟨⟩
            exact ⟨[], c :: text, rfl, hhere, by simp⟩
          · rintro ⟨before, rest, htext, h, hleft⟩
            cases before with
            | nil =>
                rw [List.nil_append] at htext
                rw [← h, ← htext, hhere]
            | cons b before =>
                -- the whole text is a place further left
                have hnone := hleft [] (b :: before) rfl (by simp)
                rw [← htext, hhere] at hnone
                cases hnone
      | none =>
          constructor
          · intro h
            obtain ⟨before, rest, rfl, h, hleft⟩ := ih.1 h
            refine ⟨c :: before, rest, rfl, h, fun far near hsplit hnear => ?_⟩
            cases far with
            | nil =>
                rw [List.nil_append] at hsplit
                rw [← hsplit]
                exact hhere
            | cons b far => exact hleft far near (List.cons.inj hsplit).2 hnear
          · rintro ⟨before, rest, htext, h, hleft⟩
            cases before with
            | nil =>
                rw [List.nil_append] at htext
                rw [← htext, hhere] at h
                cases h
            | cons b before =>
                obtain ⟨rfl, rfl⟩ := List.cons.inj htext
                exact ih.2 ⟨before, rest, rfl, h, fun far near hsplit =>
                  hleft (c :: far) near (congrArg (c :: ·) hsplit)⟩

/-- A match is an answer at some suffix of the text. -/
theorem exists_suffix_of_firstMatch {α : Type} {recognise : List Char → Option α}
    {text : List Char} {answer : α} (h : firstMatch recognise text = some answer) :
    ∃ rest, rest <:+ text ∧ recognise rest = some answer := by
  obtain ⟨before, rest, rfl, hrest, -⟩ := firstMatch_eq_some_iff.1 h
  exact ⟨rest, List.suffix_append before rest, hrest⟩

/-! ### Fixed texts -/

theorem after?_isSome_iff {head text : List Char} :
    (after? head text).isSome = true ↔ head <+: text := by
  rw [Option.isSome_iff_exists]
  constructor
  · rintro ⟨rest, h⟩
    exact ⟨rest, (after?_eq_some_iff.1 h).symm⟩
  · rintro ⟨rest, h⟩
    exact ⟨rest, after?_eq_some_iff.2 h.symm⟩

/-- The index of a text in another is the least place at which it occurs. -/
theorem indexOf?_eq_some_iff {needle text : List Char} {i : Nat} :
    indexOf? needle text = some i ↔
      i ≤ text.length ∧ needle <+: text.drop i ∧ ∀ j < i, ¬needle <+: text.drop j := by
  induction text generalizing i with
  | nil =>
      rw [indexOf?]
      by_cases hneedle : needle = []
      · rw [if_pos hneedle, hneedle, Option.some_inj]
        constructor
        · rintro rfl
          simp
        · rintro ⟨hlength, -⟩
          exact (Nat.le_zero.1 hlength).symm
      · rw [if_neg hneedle]
        simp [hneedle]
  | cons c text ih =>
      rw [indexOf?]
      by_cases hhere : needle <+: c :: text
      · rw [if_pos (after?_isSome_iff.2 hhere), Option.some_inj]
        constructor
        · rintro rfl
          exact ⟨Nat.zero_le _, hhere, by simp⟩
        · rintro ⟨-, -, hleast⟩
          rcases Nat.eq_zero_or_pos i with rfl | hpos
          · rfl
          · exact absurd hhere (hleast 0 hpos)
      · rw [if_neg (mt after?_isSome_iff.1 hhere), Option.map_eq_some_iff]
        constructor
        · rintro ⟨k, hk, rfl⟩
          obtain ⟨hlength, hplace, hleast⟩ := ih.1 hk
          refine ⟨Nat.succ_le_succ hlength, hplace, fun j hj => ?_⟩
          cases j with
          | zero => exact hhere
          | succ j => exact hleast j (Nat.lt_of_succ_lt_succ hj)
        · rintro ⟨hlength, hplace, hleast⟩
          cases i with
          | zero => exact absurd hplace hhere
          | succ k =>
              exact ⟨k, ih.2 ⟨Nat.le_of_succ_le_succ hlength, hplace, fun j hj =>
                hleast (j + 1) (Nat.succ_lt_succ hj)⟩, rfl⟩

/-- What is found ends inside the text. -/
theorem indexOf?_add_length_le {needle text : List Char} {i : Nat}
    (h : indexOf? needle text = some i) : i + needle.length ≤ text.length := by
  obtain ⟨hlength, hplace, -⟩ := indexOf?_eq_some_iff.1 h
  have hle := hplace.length_le
  rw [List.length_drop] at hle
  omega

/-- What is part of a text is found in it. -/
theorem exists_indexOf?_of_infix {needle text : List Char} (h : needle <:+: text) :
    ∃ i, indexOf? needle text = some i := by
  induction text with
  | nil => exact ⟨0, by rw [indexOf?, if_pos (List.infix_nil.1 h)]⟩
  | cons c text ih =>
      rw [indexOf?]
      by_cases hhere : needle <+: c :: text
      · exact ⟨0, if_pos (after?_isSome_iff.2 hhere)⟩
      · obtain ⟨i, hi⟩ := ih ((List.infix_cons_iff.1 h).resolve_left hhere)
        rw [if_neg (mt after?_isSome_iff.1 hhere), hi]
        exact ⟨i + 1, rfl⟩

theorem occurs_iff {needle text : List Char} : occurs needle text = true ↔ needle <:+: text := by
  rw [occurs, Option.isSome_iff_exists]
  constructor
  · rintro ⟨i, hi⟩
    obtain ⟨-, hplace, -⟩ := indexOf?_eq_some_iff.1 hi
    exact hplace.isInfix.trans (List.drop_suffix i text).isInfix
  · exact exists_indexOf?_of_infix

end Edl.Text
