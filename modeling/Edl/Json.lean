/-
JSON documents in ASCII.

A document is written over several lines, two spaces deeper at each level; an empty list or object
stays on one line.  Strings hold only printable ASCII characters: everything else is escaped, by a
letter if it has one, else by its number in UTF-16 units of four hexadecimal digits.

Main definitions:

* `Edl.Json` — documents of the kind that reports need;
* `Edl.Json.renderString` — a string in its written form;
* `Edl.Json.render` — a document in its written form.
-/

import Edl.Text.Quoted

set_option relaxedAutoImplicit false
set_option autoImplicit false

namespace Edl

/-- A JSON document; its numbers are natural. -/
inductive Json where
  | null
  | number (n : Nat)
  | string (s : String)
  | array (items : List Json)
  | object (fields : List (String × Json))

namespace Json

/-- One UTF-16 unit, escaped. -/
def escapeUnit (unit : Nat) : List Char :=
  '\\' :: 'u' :: Text.hex 4 unit

/-- One character of a string in its written form. -/
def escapeChar (c : Char) : List Char :=
  if c = '"' || c = '\\' then ['\\', c]
  else if c = '\n' then ['\\', 'n']
  else if c = '\r' then ['\\', 'r']
  else if c = '\t' then ['\\', 't']
  else if c.toNat = 0x08 then ['\\', 'b']
  else if c.toNat = 0x0C then ['\\', 'f']
  else if 0x20 ≤ c.toNat && c.toNat < 0x7F then [c]
  else if c.toNat < 0x10000 then escapeUnit c.toNat
  else
    let offset := c.toNat - 0x10000
    escapeUnit (0xD800 + offset / 0x400) ++ escapeUnit (0xDC00 + offset % 0x400)

/-- A string in its written form. -/
def renderString (s : String) : List Char :=
  '"' :: (s.toList.flatMap escapeChar ++ ['"'])

/-- The start of a line at the given depth. -/
def newLine (depth : Nat) : List Char :=
  '\n' :: List.replicate (2 * depth) ' '

/-- Written items between brackets, each on lines of its own. -/
def bracket (opening closing : Char) (depth : Nat) : List (List Char) → List Char
  | [] => [opening, closing]
  | item :: items =>
      opening :: (newLine (depth + 1) ++ item ++
        items.flatMap (fun item => ',' :: (newLine (depth + 1) ++ item)) ++
        newLine depth ++ [closing])

mutual

/-- A document at the given depth in its written form. -/
def renderAt (depth : Nat) : Json → List Char
  | null => ['n', 'u', 'l', 'l']
  | number n => (toString n).toList
  | string s => renderString s
  | array items => bracket '[' ']' depth (renderItems (depth + 1) items)
  | object fields => bracket '{' '}' depth (renderFields (depth + 1) fields)

/-- The items of a list in their written form. -/
def renderItems (depth : Nat) : List Json → List (List Char)
  | [] => []
  | item :: items => renderAt depth item :: renderItems depth items

/-- The fields of an object in their written form. -/
def renderFields (depth : Nat) : List (String × Json) → List (List Char)
  | [] => []
  | (key, value) :: fields =>
      (renderString key ++ ':' :: ' ' :: renderAt depth value) :: renderFields depth fields

end

/-- A document in its written form. -/
def render (j : Json) : String :=
  String.ofList (renderAt 0 j)

/-- A string, or null where there is none. -/
def ofOption : Option String → Json
  | some s => string s
  | none => null

end Json

end Edl
