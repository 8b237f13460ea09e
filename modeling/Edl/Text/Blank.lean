/-
Blank characters, and what trimming a line of them means.

Blanks are the white space of general text, not only of ASCII: tabulators and line ends, the four
information separators, the no-break and typographic spaces, and the two Unicode separators.  The
zero-width space and the byte order mark are *not* blank.

Main definitions:

* `Edl.Text.isBlank` — the class of blank characters;
* `Edl.Text.indent` — the blanks that open a line;
* `Edl.Text.trimStart`, `Edl.Text.trimEnd`, `Edl.Text.trim` — a line without the blanks at its
  left end, its right end, or both.
-/

set_option relaxedAutoImplicit false
set_option autoImplicit false

namespace Edl.Text

/-- The code points of the blank characters, as closed intervals in increasing order. -/
def blankIntervals : List (Nat × Nat) :=
  [(0x0009, 0x000D), (0x001C, 0x0020), (0x0085, 0x0085), (0x00A0, 0x00A0), (0x1680, 0x1680),
   (0x2000, 0x200A), (0x2028, 0x2029), (0x202F, 0x202F), (0x205F, 0x205F), (0x3000, 0x3000)]

/-- A blank is a character whose code point lies in one of `blankIntervals`. -/
def isBlank (c : Char) : Bool :=
  blankIntervals.any fun i => i.1 ≤ c.toNat && c.toNat ≤ i.2

/-- The blanks that open a line. -/
def indent (line : List Char) : List Char :=
  line.takeWhile isBlank

/-- The line without the blanks that open it. -/
def trimStart (line : List Char) : List Char :=
  line.dropWhile isBlank

/-- The line without the blanks that close it: a blank goes when nothing but blanks follows. -/
def trimEnd : List Char → List Char
  | [] => []
  | c :: rest =>
      match trimEnd rest with
      | [] => if isBlank c then [] else [c]
      | d :: kept => c :: d :: kept

/-- The line without the blanks at either end. -/
def trim (line : List Char) : List Char :=
  trimEnd (trimStart line)

@[simp] theorem trimEnd_nil : trimEnd [] = [] := rfl

/-- Indentation and the rest make up the line. -/
theorem indent_append_trimStart (line : List Char) : indent line ++ trimStart line = line :=
  List.takeWhile_append_dropWhile

/-- Trimming the end never makes a line longer. -/
theorem length_trimEnd_le (line : List Char) : (trimEnd line).length ≤ line.length := by
  induction line with
  | nil => simp
  | cons c rest ih =>
      rw [trimEnd]
      split
      · split <;> simp
      · rename_i d kept h
        rw [h] at ih
        simpa using ih

end Edl.Text
