/-
A text is its lines.

Cutting a text at its line feeds loses nothing and adds nothing: the lines, written one after
another with line feeds between them, are the text, and every list of lines is that of some text, as
long as it is not empty and no line holds a line feed.  So a text with `n` line feeds has `n + 1`
lines, of which some may be empty.  No other character ends a line: what stands between two texts
and holds no line feed makes one line with the end of the first and the start of the second.

Main results:

* `Edl.Text.length_splitLines` — the number of lines;
* `Edl.Text.splitLines_between` — what holds no line feed stays inside a line;
* `Edl.Document.lineAt_eq_ok_iff`, `Edl.Document.exists_lineAt_iff` — which lines a document has;
* `Edl.Text.line_splitting_is_bijective` — **splitting and joining lines undo each other**.
-/

import Edl.Document
import Edl.Proofs.Lines

set_option relaxedAutoImplicit false
set_option autoImplicit false

namespace Edl

namespace Text

/-! ### Pieces -/

section

variable {separator : Char}

/-- Each separator makes one piece more. -/
theorem length_cutAt (separator : Char) (text : List Char) :
    (cutAt separator text).length = text.count separator + 1 := by
  induction text with
  | nil => rfl
  | cons c text ih =>
      by_cases hc : c = separator
      · subst hc
        rw [cutAt_separator_cons, List.length_cons, ih, List.count_cons_self]
      · obtain ⟨piece, pieces, hcut⟩ := List.exists_cons_of_ne_nil (cutAt_ne_nil separator text)
        rw [hcut] at ih
        rw [cutAt_cons_of_ne hc hcut, List.count_cons_of_ne hc, ← ih, List.length_cons,
          List.length_cons]

/-- What holds no separator joins the first piece behind it. -/
theorem cutAt_append_of_not_mem {middle text right : List Char} {after : List (List Char)}
    (hmiddle : separator ∉ middle) (htext : cutAt separator text = right :: after) :
    cutAt separator (middle ++ text) = (middle ++ right) :: after := by
  induction middle with
  | nil => exact htext
  | cons c middle ih =>
      rw [List.mem_cons, not_or] at hmiddle
      exact cutAt_cons_of_ne (Ne.symm hmiddle.1) (ih hmiddle.2)

/-- What holds no separator stays inside one piece, with the last piece in front of it and the first
one behind it. -/
theorem cutAt_between {front middle back left right : List Char} {before after : List (List Char)}
    (hmiddle : separator ∉ middle) (hfront : cutAt separator front = before ++ [left])
    (hback : cutAt separator back = right :: after) :
    cutAt separator (front ++ middle ++ back) =
      before ++ [left ++ middle ++ right] ++ after := by
  induction front generalizing before left with
  | nil =>
      obtain ⟨rfl, hleft⟩ := List.append_eq_singleton_iff.1 hfront.symm |>.resolve_right (by simp)
      obtain rfl := (List.cons.inj hleft).1
      exact cutAt_append_of_not_mem hmiddle hback
  | cons c front ih =>
      rw [List.append_assoc, List.cons_append, ← List.append_assoc]
      by_cases hc : c = separator
      · subst hc
        rw [cutAt_separator_cons] at hfront
        -- the empty piece in front of the separator is not the last one
        cases before with
        | nil => exact absurd (List.cons.inj hfront).2 (cutAt_ne_nil c front)
        | cons first before =>
            obtain ⟨rfl, hrest⟩ := List.cons.inj hfront
            rw [cutAt_separator_cons, ih hrest]
            rfl
      · obtain ⟨piece, pieces, hcut⟩ := List.exists_cons_of_ne_nil (cutAt_ne_nil separator front)
        rw [cutAt_cons_of_ne hc hcut] at hfront
        cases before with
        | nil =>
            obtain ⟨rfl, rfl⟩ := List.cons.inj hfront
            have hcut' : cutAt separator front = [] ++ [piece] := hcut
            exact cutAt_cons_of_ne hc (ih hcut')
        | cons first before =>
            obtain ⟨rfl, rfl⟩ := List.cons.inj hfront
            have hcut' : cutAt separator front = (piece :: before) ++ [left] := hcut
            exact cutAt_cons_of_ne hc (ih hcut')

end

/-! ### Lines -/

theorem joinLines_eq_intercalate (lines : List String) :
    joinLines lines = "\n".intercalate lines := by
  apply String.toList_inj.1
  rw [joinLines, String.toList_ofList, String.toList_intercalate, glueWith_eq_intercalate]
  rfl

theorem length_splitLines (text : String) :
    (splitLines text).length = text.toList.count '\n' + 1 := by
  rw [splitLines, List.length_map, length_cutAt]

/-- What holds no line feed stays inside one line, with the last line in front of it and the first
one behind it. -/
theorem splitLines_between (front back : String) {middle : String} (h : '\n' ∉ middle.toList) :
    ∃ before left right after, splitLines front = before ++ [left] ∧
      splitLines back = right :: after ∧
      splitLines (front ++ middle ++ back) = before ++ [left ++ middle ++ right] ++ after := by
  obtain ⟨right, after, hback⟩ := List.exists_cons_of_ne_nil (cutAt_ne_nil '\n' back.toList)
  obtain ⟨before, left, hfront⟩ :=
    (List.eq_nil_or_concat (cutAt '\n' front.toList)).resolve_left (cutAt_ne_nil '\n' _)
  rw [List.concat_eq_append] at hfront
  refine ⟨before.map String.ofList, String.ofList left, String.ofList right,
    after.map String.ofList, ?_, ?_, ?_⟩
  · rw [splitLines, hfront, List.map_append]
    rfl
  · rw [splitLines, hback]
    rfl
  · rw [splitLines, String.toList_append, String.toList_append, cutAt_between h hfront hback]
    simp [String.append_assoc]

end Text

/-! ### The lines of a document -/

namespace Document

/-- The line with a number, if there is one. -/
theorem lineAt_eq_ok_iff (d : Document) (k : Int) (line : String) :
    d.lineAt k = .ok line ↔ 0 ≤ k ∧ (Text.splitLines d.text)[k.toNat]? = some line := by
  cases k with
  | negSucc n => simp [lineAt]
  | ofNat n =>
      cases hline : (Text.splitLines d.text)[n]? with
      | none => simp [lineAt, hline]
      | some text => simp [lineAt, hline]

theorem exists_lineAt_iff (d : Document) (k : Int) :
    (∃ line, d.lineAt k = .ok line) ↔ 0 ≤ k ∧ k < d.lineCount := by
  simp only [lineAt_eq_ok_iff, exists_and_left]
  refine and_congr_right fun hk => ?_
  rw [← Option.isSome_iff_exists, Option.isSome_iff_ne_none, Ne, List.getElem?_eq_none_iff,
    lineCount]
  omega

end Document

/-- **Splitting and joining lines undo each other.**  The lines of a text are at least one, they
hold no line feed, and joined by line feeds they are the text; every such list of lines is what
splitting the joined text gives.  A document has one line more than its text has line feeds, its
lines are numbered from zero, and those are all the numbers that have a line.  What holds no line
feed, such as any other character, stays inside one line. -/
theorem Text.line_splitting_is_bijective :
    (∀ text, splitLines text ≠ [] ∧ (∀ line ∈ splitLines text, '\n' ∉ line.toList) ∧
      "\n".intercalate (splitLines text) = text) ∧
    (∀ lines : List String, lines ≠ [] → (∀ line ∈ lines, '\n' ∉ line.toList) →
      splitLines ("\n".intercalate lines) = lines) ∧
    (∀ d : Document, d.lineCount = d.text.toList.count '\n' + 1 ∧
      ∀ k : Int, ((∃ line, d.lineAt k = .ok line) ↔ 0 ≤ k ∧ k < d.lineCount) ∧
        ∀ line, d.lineAt k = .ok line ↔ 0 ≤ k ∧ (splitLines d.text)[k.toNat]? = some line) ∧
    (∀ front middle back : String, '\n' ∉ middle.toList →
      ∃ before left right after, splitLines front = before ++ [left] ∧
        splitLines back = right :: after ∧
        splitLines (front ++ middle ++ back) = before ++ [left ++ middle ++ right] ++ after) := by
  refine ⟨fun text => ⟨splitLines_ne_nil text, fun _ => not_mem_of_mem_splitLines, ?_⟩, ?_, ?_, ?_⟩
  · rw [← joinLines_eq_intercalate, joinLines_splitLines]
  · intro lines hne hlines
    rw [← joinLines_eq_intercalate, splitLines_joinLines hne hlines]
  · intro d
    exact ⟨length_splitLines d.text, fun k => ⟨d.exists_lineAt_iff k, d.lineAt_eq_ok_iff k⟩⟩
  · intro front middle back hmiddle
    exact splitLines_between front back hmiddle

example : Text.splitLines "\na\r\n\n\x0cb\u0085c\u2028\n" =
    ["", "a\r", "", "\x0cb\u0085c\u2028", ""] := by
  rfl

end Edl
