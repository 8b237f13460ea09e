/-
Line ends of files.

A file may end its lines with a line feed, with a carriage return, or with both in that order; once
it is read, every line ends with a line feed.

Main definitions:

* `Edl.Text.foldLineEnds` — the text with all line ends made line feeds.
-/

set_option relaxedAutoImplicit false
set_option autoImplicit false

namespace Edl.Text

/-- The text with every carriage return, and a line feed right after it, made one line feed. -/
def foldLineEnds : List Char → List Char
  | '\r' :: '\n' :: rest => '\n' :: foldLineEnds rest
  | '\r' :: rest => '\n' :: foldLineEnds rest
  | c :: rest => c :: foldLineEnds rest
  | [] => []

example : foldLineEnds ['a', '\r', '\n', '\r', 'b', '\n'] = ['a', '\n', '\n', 'b', '\n'] := by
  decide

end Edl.Text
