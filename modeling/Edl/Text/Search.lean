/-
Words and places inside a line.

A line is searched from left to right for the first place where a recogniser succeeds.  The words
of the language are runs of *word characters*: ASCII letters, ASCII digits and the underscore.

Main definitions:

* `Edl.Text.isWordChar`, `Edl.Text.word` — word characters, and the word that opens a text;
* `Edl.Text.after?` — what follows a fixed text that opens another;
* `Edl.Text.firstMatch` — the answer of a recogniser at the leftmost place where it has one;
* `Edl.Text.indexOf?`, `Edl.Text.occurs` — the leftmost place where a text occurs in another.
-/

set_option relaxedAutoImplicit false
set_option autoImplicit false

namespace Edl.Text

/-- Word characters are the ASCII letters, the ASCII digits and the underscore. -/
def isWordChar (c : Char) : Bool :=
  c.isAlphanum || c == '_'

/-- The longest run of word characters at the start of a text. -/
def word (text : List Char) : List Char :=
  text.takeWhile isWordChar

/-- What follows `head` in a text that starts with it. -/
def after? : (head text : List Char) → Option (List Char)
  | [], text => some text
  | _ :: _, [] => none
  | h :: head, c :: text => if h = c then after? head text else none

/-- The answer of `recognise` at the leftmost place of a text where it has one. -/
def firstMatch {α : Type} (recognise : List Char → Option α) : List Char → Option α
  | [] => recognise []
  | c :: rest =>
      match recognise (c :: rest) with
      | some answer => some answer
      | none => firstMatch recognise rest

/-- The least index at which `needle` occurs in a text. -/
def indexOf? (needle : List Char) : List Char → Option Nat
  | [] => if needle = [] then some 0 else none
  | c :: rest =>
      if (after? needle (c :: rest)).isSome then some 0
      else (indexOf? needle rest).map (· + 1)

/-- Whether `needle` occurs somewhere in a text. -/
def occurs (needle text : List Char) : Bool :=
  (indexOf? needle text).isSome

@[simp] theorem after?_nil (text : List Char) : after? [] text = some text := by
  cases text <;> rfl

/-- `after?` undoes concatenation, and nothing else. -/
theorem after?_eq_some_iff {head text rest : List Char} :
    after? head text = some rest ↔ text = head ++ rest := by
  induction head generalizing text with
  | nil => simp
  | cons h head ih =>
      cases text with
      | nil => simp [after?]
      | cons c text =>
          by_cases hc : h = c
          · simp [after?, hc, ih]
          · simp [after?, hc, Ne.symm hc]

end Edl.Text
