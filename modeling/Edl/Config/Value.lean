/-
Values of a configuration.

A configuration is a tree: its inner nodes are maps with text keys, its leaves are truth values,
numbers, texts, lists and the absent value.  A real number is kept as it was written.  The entries
of a map have an order, which is visible when the value is shown but not when it is compared.

Main definitions:

* `Edl.Config.Value` — the values;
* `Edl.Config.Value.same` — equality by value, across truth values and the two kinds of numbers;
* `Edl.Config.Value.describe` — the text of a value in messages.
-/

import Edl.Config.Number
import Edl.Text.Quoted

set_option relaxedAutoImplicit false
set_option autoImplicit false

namespace Edl.Config

/-- A value of a configuration. -/
inductive Value where
  | null
  | bool (b : Bool)
  | int (n : Int)
  | real (numeral : String)
  | text (s : String)
  | list (items : List Value)
  | map (entries : List (String × Value))
  deriving Inhabited

/-- The numeric value of a truth value or a number. -/
def Value.number? : Value → Option Number
  | .bool b => some (.ofInt (if b then 1 else 0))
  | .int n => some (.ofInt n)
  | .real numeral => some (.ofNumeral numeral)
  | _ => none

/-- Whether a value is a map. -/
def Value.isMap : Value → Bool
  | .map _ => true
  | _ => false

/-! ### Equality by value -/

mutual

/-- Equality by value: truth values and numbers compare as numbers, lists element by element, and
maps by their entries in any order.  Values carry no identity, so nothing but what they hold counts:
since nan is the same as no number, a list or map that holds it is not the same as itself. -/
def Value.same : Value → Value → Bool
  | .null, .null => true
  | .text a, .text b => a == b
  | .list a, .list b => sameItems a b
  | .map a, .map b => a.length == b.length && sameEntries a b
  | a, b =>
      match a.number?, b.number? with
      | some x, some y => x.same y
      | _, _ => false

/-- Two lists are the same when they are as long and agree item by item. -/
def sameItems : List Value → List Value → Bool
  | [], [] => true
  | a :: as, b :: bs => a.same b && sameItems as bs
  | _, _ => false

/-- Every entry on the left has a counterpart of the same value on the right. -/
def sameEntries : List (String × Value) → List (String × Value) → Bool
  | [], _ => true
  | (key, a) :: rest, entries =>
      (match entries.lookup key with
        | some b => a.same b
        | none => false) && sameEntries rest entries

end

/-! ### The text of a value -/

mutual

/-- The text of a value as it stands in messages. -/
def Value.describe : Value → String
  | .null => "None"
  | .bool true => "True"
  | .bool false => "False"
  | .int n => toString n
  | .real numeral => numeral
  | .text s => Text.quote s
  | .list items => "[" ++ ", ".intercalate (describeItems items) ++ "]"
  | .map entries => "\x7b" ++ ", ".intercalate (describeEntries entries) ++ "\x7d"

/-- The texts of the items of a list. -/
def describeItems : List Value → List String
  | [] => []
  | v :: rest => v.describe :: describeItems rest

/-- The texts of the entries of a map, each key before its value. -/
def describeEntries : List (String × Value) → List String
  | [] => []
  | (key, v) :: rest => (Text.quote key ++ ": " ++ v.describe) :: describeEntries rest

end

end Edl.Config
