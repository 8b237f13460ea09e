/-
Text in quotes, as it stands in messages.

A text is put between single quotes, or between double quotes if it holds a single quote and no
double quote.  A backslash and the quote in use are escaped, as are the three common line controls;
any other character that cannot be shown is written by its code point in two, four or eight
hexadecimal digits.

Main definitions:

* `Edl.Text.hex` — a number in lower-case hexadecimal, padded to a width;
* `Edl.Text.quote` — the quoted form of a text.
-/

import Edl.Text.Printable

set_option relaxedAutoImplicit false
set_option autoImplicit false

namespace Edl.Text

/-- The lower-case hexadecimal digit of a number below sixteen. -/
def hexDigit (n : Nat) : Char :=
  if n < 10 then Char.ofNat (n + 48) else Char.ofNat (n + 87)

/-- The last `width` hexadecimal digits of a number. -/
def hex : (width : Nat) → Nat → List Char
  | 0, _ => []
  | width + 1, n => hex width (n / 16) ++ [hexDigit (n % 16)]

/-- The mark put around a text: double only where that spares escaping a single one. -/
def quoteMark (text : List Char) : Char :=
  if text.contains '\'' && !text.contains '"' then '"' else '\''

/-- One character of a quoted text, inside the given marks. -/
def quoteChar (mark c : Char) : List Char :=
  if c = mark || c = '\\' then ['\\', c]
  else if c = '\t' then ['\\', 't']
  else if c = '\n' then ['\\', 'n']
  else if c = '\r' then ['\\', 'r']
  else if isPrintable c then [c]
  else if c.toNat < 0x100 then '\\' :: 'x' :: hex 2 c.toNat
  else if c.toNat < 0x10000 then '\\' :: 'u' :: hex 4 c.toNat
  else '\\' :: 'U' :: hex 8 c.toNat

/-- The text in quotes. -/
def quoteChars (text : List Char) : List Char :=
  let mark := quoteMark text
  mark :: (text.flatMap (quoteChar mark) ++ [mark])

/-- The text in quotes, as a string. -/
def quote (text : String) : String :=
  String.ofList (quoteChars text.toList)

@[simp] theorem length_hex (width n : Nat) : (hex width n).length = width := by
  induction width generalizing n with
  | zero => rfl
  | succ width ih => simp [hex, ih]

example : quote "it's" = "\"it's\"" := by decide +kernel
example : quote "a\n\x00b\\" = "'a\\n\\x00b\\\\'" := by decide +kernel

end Edl.Text
