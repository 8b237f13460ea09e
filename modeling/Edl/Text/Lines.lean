/-
Texts and their lines.

A text is cut into pieces at a separator character, and the pieces can be written one after another
with the separator between neighbours.  The lines of a text are its pieces at line feeds: a
carriage return, a form feed or a Unicode separator stays inside its line, a text with `n` line
feeds has `n + 1` lines, and the last of them may be empty.

Main definitions:

* `Edl.Text.cutAt`, `Edl.Text.glueWith` — cutting and joining at a separator;
* `Edl.Text.splitLines`, `Edl.Text.joinLines` — lines of a text.
-/

set_option relaxedAutoImplicit false
set_option autoImplicit false

namespace Edl.Text

/-- The pieces of a text between the occurrences of a separator. -/
def cutAt (separator : Char) : List Char → List (List Char)
  | [] => [[]]
  | c :: rest =>
      if c = separator then [] :: cutAt separator rest
      else
        match cutAt separator rest with
        | [] => [[c]]
        | piece :: pieces => (c :: piece) :: pieces

/-- The pieces one after another, with the separator between neighbours. -/
def glueWith (separator : Char) : List (List Char) → List Char
  | [] => []
  | [piece] => piece
  | piece :: next :: pieces => piece ++ separator :: glueWith separator (next :: pieces)

/-- The lines of a text. -/
def splitLines (text : String) : List String :=
  (cutAt '\n' text.toList).map String.ofList

/-- The text whose lines are the given ones. -/
def joinLines (lines : List String) : String :=
  String.ofList (glueWith '\n' (lines.map String.toList))

@[simp] theorem cutAt_nil (separator : Char) : cutAt separator [] = [[]] := rfl

/-- A text has at least one piece. -/
theorem cutAt_ne_nil (separator : Char) (text : List Char) : cutAt separator text ≠ [] := by
  cases text with
  | nil => simp
  | cons c rest =>
      rw [cutAt]
      split
      · simp
      · split <;> simp

end Edl.Text
