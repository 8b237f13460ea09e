/-
What is shown for the word under the cursor.

The *tokens* of a line are its identifiers, which do not start with a digit, and the four flow
operators.  They are read from left to right without overlap, as many characters at a time as
belong together.  A position touches a token when it lies in it or at its end; where it touches
two, the earlier one counts.

Main definitions:

* `Edl.Hover.tokenLength` — the length of the token at the start of a text;
* `Edl.Hover.tokens` — the tokens of a line, by start and end;
* `Edl.Hover.wordRange?` — the range of the token that a position touches;
* `Edl.Hover.at?` — the explanation of that token.
-/

import Edl.Document
import Edl.Vocabulary
import Edl.Text.Position
import Edl.Text.Search

set_option relaxedAutoImplicit false
set_option autoImplicit false

namespace Edl.Hover

open Text (isWordChar)

/-- The number of characters of the token at the start of a text; zero if there is none. -/
def tokenLength : List Char → Nat
  | '-' :: '>' :: _ => 2
  | '=' :: '>' :: _ => 2
  | '<' :: '-' :: _ => 2
  | '|' :: '>' :: _ => 2
  | c :: rest =>
      if isWordChar c && !c.isDigit then (rest.takeWhile isWordChar).length + 1 else 0
  | [] => 0

/-- The tokens of a text whose first character stands at `start`, in order.  While `busy` is
positive, so many characters still belong to the token before. -/
def tokensFrom (start busy : Nat) : List Char → List (Nat × Nat)
  | [] => []
  | c :: rest =>
      match busy with
      | busy + 1 => tokensFrom (start + 1) busy rest
      | 0 =>
          match tokenLength (c :: rest) with
          | 0 => tokensFrom (start + 1) 0 rest
          | length + 1 => (start, start + length + 1) :: tokensFrom (start + 1) length rest

/-- The tokens of a line, each by its start and its end. -/
def tokens (line : List Char) : List (Nat × Nat) :=
  tokensFrom 0 0 line

/-- The range of the first of the given stretches that a position touches.  The search ends at the
first one that starts behind the position. -/
def touched (p : Text.Position) : List (Nat × Nat) → Except Fault (Option Text.Range)
  | [] => return none
  | (start, stop) :: later => do
      let candidate ← Text.Range.onLine p.line start stop
      if candidate.touches p then return some candidate
      if p.character < start then return none
      touched p later

/-- The range of the token that a position touches. -/
def wordRange? (line : List Char) (p : Text.Position) : Except Fault (Option Text.Range) :=
  touched p (tokens line)

end Edl.Hover

namespace Edl

/-- An explanation and the token that it explains. -/
structure Hover where
  contents : String
  range : Text.Range
  deriving DecidableEq

/-- The explanation of the token at a position of a document. -/
def Hover.at? (d : Document) (p : Text.Position) : Except Fault (Option Hover) := do
  if d.lineCount ≤ p.line then return none
  let line ← d.lineAt p.line
  match ← wordRange? line.toList p with
  | none => return none
  | some range =>
      let word := (line.toList.take range.stop.character).drop range.start.character
      return (Vocabulary.hoverDocs.lookup (String.ofList word)).map fun contents =>
        { contents, range }

end Edl
