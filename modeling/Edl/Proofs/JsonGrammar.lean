/-
The grammar of JSON texts.

A text denotes a datum by rules that say nothing of how the text is read.  Space may stand around
every structural character and around the whole text.  A number is an exact decimal fraction with an
optional power of ten.  A string is a sequence of characters between quotes, each of them written as
itself, by a letter behind a backslash, or by its UTF-16 units in four hexadecimal digits; two units
are combined where they are a surrogate pair, and a surrogate that stands alone denotes nothing.

The rules cover all texts of the format, not only those that reports are written in.

Main definitions:

* `Edl.Json.Datum` — what a text can denote;
* `Edl.Json.DenotesNumber`, `Edl.Json.DenotesChar`, `Edl.Json.DenotesText` — numbers, and what
  stands between quotes;
* `Edl.Json.DenotesList`, `Edl.Json.DenotesField` — what stands between brackets;
* `Edl.Json.Denotes`, `Edl.Json.DenotesDocument` — **the datum of a text**.

Main results:

* `Edl.Json.Denotes.starts`, `Edl.Json.DenotesField.starts` — a text begins with a character that is
  neither space nor the bracket which would close what it stands in.
-/

import Edl.Json

set_option relaxedAutoImplicit false
set_option autoImplicit false

namespace Edl.Json

/-- What a JSON text stands for; numbers are exact, and members keep their order. -/
inductive Datum where
  | null
  | bool (value : Bool)
  | number (value : Rat)
  | string (text : String)
  | array (items : List Datum)
  | object (members : List (String × Datum))

/-! ### Space -/

/-- The characters that may stand between the parts of a text. -/
def isSpace (c : Char) : Bool :=
  c == ' ' || c == '\t' || c == '\n' || c == '\r'

/-- There is nothing but space. -/
def Space (text : List Char) : Prop :=
  ∀ c ∈ text, isSpace c = true

theorem space_nil : Space [] := by
  intro c hc
  cases hc

/-! ### Numbers -/

/-- One decimal digit or more. -/
def Digits (text : List Char) : Prop :=
  text ≠ [] ∧ ∀ c ∈ text, c.isDigit = true

/-- Decimal digits that begin with a zero only if there is no other. -/
structure Whole (text : List Char) : Prop where
  digits : Digits text
  leading : text.head? = some '0' → text = ['0']

/-- The number of decimal digits. -/
def numeral (digits : List Char) : Nat :=
  Nat.ofDigitChars 10 digits 0

/-- A number with its sign. -/
def signed (negative : Bool) (size : Nat) : Int :=
  if negative then -(size : Int) else size

/-- The number with the given sign and digits, of which the last `places` stand behind the point,
times a power of ten. -/
def amount (negative : Bool) (digits : List Char) (places : Nat) (exponent : Int) : Rat :=
  mkRat (signed negative (numeral digits * Nat.pow 10 exponent.toNat))
    (Nat.pow 10 (places + (-exponent).toNat))

/-- A minus sign, or none. -/
inductive DenotesSign : List Char → Bool → Prop
  | plus : DenotesSign [] false
  | minus : DenotesSign ['-'] true

/-- A point and digits, or nothing. -/
inductive DenotesFraction : List Char → List Char → Prop
  | absent : DenotesFraction [] []
  | present {digits : List Char} : Digits digits → DenotesFraction ('.' :: digits) digits

/-- Digits with or without a sign. -/
inductive DenotesPower : List Char → Int → Prop
  | plain {digits : List Char} : Digits digits →
      DenotesPower digits (signed false (numeral digits))
  | plus {digits : List Char} : Digits digits →
      DenotesPower ('+' :: digits) (signed false (numeral digits))
  | minus {digits : List Char} : Digits digits →
      DenotesPower ('-' :: digits) (signed true (numeral digits))

/-- A power behind its mark, or nothing. -/
inductive DenotesExponent : List Char → Int → Prop
  | absent : DenotesExponent [] 0
  | lower {power : List Char} {exponent : Int} : DenotesPower power exponent →
      DenotesExponent ('e' :: power) exponent
  | upper {power : List Char} {exponent : Int} : DenotesPower power exponent →
      DenotesExponent ('E' :: power) exponent

/-- A number in decimal. -/
inductive DenotesNumber : List Char → Rat → Prop
  | mk {sign whole fraction decimals power : List Char} {negative : Bool} {exponent : Int} :
      DenotesSign sign negative → Whole whole → DenotesFraction fraction decimals →
      DenotesExponent power exponent →
      DenotesNumber (sign ++ (whole ++ (fraction ++ power)))
        (amount negative (whole ++ decimals) decimals.length exponent)

/-! ### Strings -/

/-- The characters that are written by a letter behind a backslash. -/
def escapes : List (Char × Char) :=
  [('"', '"'), ('\\', '\\'), ('/', '/'), ('b', '\x08'), ('f', '\x0c'), ('n', '\n'), ('r', '\r'),
    ('t', '\t')]

/-- The value of a hexadecimal digit in either case. -/
def hexValue? (c : Char) : Option Nat :=
  if '0' ≤ c ∧ c ≤ '9' then some (c.toNat - 48)
  else if 'a' ≤ c ∧ c ≤ 'f' then some (c.toNat - 87)
  else if 'A' ≤ c ∧ c ≤ 'F' then some (c.toNat - 55)
  else none

/-- The number of hexadecimal digits, behind digits that were read before. -/
def hexNumber? : (before : Nat) → List Char → Option Nat
  | before, [] => some before
  | before, c :: digits =>
      match hexValue? c with
      | none => none
      | some value => hexNumber? (16 * before + value) digits

/-- Four hexadecimal digits, which make a UTF-16 unit. -/
structure DenotesUnit (digits : List Char) (unit : Nat) : Prop where
  length : digits.length = 4
  value : hexNumber? 0 digits = some unit

/-- The first unit of a surrogate pair. -/
def isHighSurrogate (unit : Nat) : Bool :=
  0xD800 ≤ unit && unit < 0xDC00

/-- The second unit of a surrogate pair. -/
def isLowSurrogate (unit : Nat) : Bool :=
  0xDC00 ≤ unit && unit < 0xE000

/-- The character of a surrogate pair. -/
def combine (high low : Nat) : Char :=
  Char.ofNat (0x10000 + (high - 0xD800) * 0x400 + (low - 0xDC00))

/-- One character of a string. -/
inductive DenotesChar : List Char → Char → Prop
  | plain {c : Char} : 0x20 ≤ c.toNat → c ≠ '"' → c ≠ '\\' → DenotesChar [c] c
  | letter {letter c : Char} : (letter, c) ∈ escapes → DenotesChar ['\\', letter] c
  | unit {digits : List Char} {unit : Nat} : DenotesUnit digits unit →
      isHighSurrogate unit = false → isLowSurrogate unit = false →
      DenotesChar ('\\' :: 'u' :: digits) (Char.ofNat unit)
  | pair {digits digits' : List Char} {high low : Nat} : DenotesUnit digits high →
      isHighSurrogate high = true → DenotesUnit digits' low → isLowSurrogate low = true →
      DenotesChar ('\\' :: 'u' :: (digits ++ '\\' :: 'u' :: digits')) (combine high low)

/-- The characters of a string, one after another. -/
inductive DenotesText : List Char → List Char → Prop
  | nil : DenotesText [] []
  | cons {first rest : List Char} {c : Char} {text : List Char} : DenotesChar first c →
      DenotesText rest text → DenotesText (first ++ rest) (c :: text)

/-! ### Structure -/

/-- Items with commas between them, at least one, with space around each. -/
inductive DenotesList {α : Type} (Item : List Char → α → Prop) : List Char → List α → Prop
  | last {before item after : List Char} {value : α} : Space before → Item item value →
      Space after → DenotesList Item (before ++ (item ++ after)) [value]
  | more {before item after rest : List Char} {value : α} {values : List α} : Space before →
      Item item value → Space after → DenotesList Item rest values →
      DenotesList Item (before ++ (item ++ (after ++ ',' :: rest))) (value :: values)

/-- A name and an item, with a colon between them and space around it. -/
inductive DenotesField {α : Type} (Item : List Char → α → Prop) : List Char → String × α → Prop
  | mk {name before after item text : List Char} {value : α} : DenotesText name text →
      Space before → Space after → Item item value →
      DenotesField Item ('"' :: (name ++ '"' :: (before ++ ':' :: (after ++ item))))
        (String.ofList text, value)

/-- The datum of a text without space around it. -/
inductive Denotes : List Char → Datum → Prop
  | null : Denotes ['n', 'u', 'l', 'l'] .null
  | true : Denotes ['t', 'r', 'u', 'e'] (.bool true)
  | false : Denotes ['f', 'a', 'l', 's', 'e'] (.bool false)
  | number {text : List Char} {value : Rat} : DenotesNumber text value →
      Denotes text (.number value)
  | string {written text : List Char} : DenotesText written text →
      Denotes ('"' :: (written ++ ['"'])) (.string (String.ofList text))
  | emptyArray {gap : List Char} : Space gap → Denotes ('[' :: (gap ++ [']'])) (.array [])
  | array {inner : List Char} {items : List Datum} : DenotesList Denotes inner items →
      Denotes ('[' :: (inner ++ [']'])) (.array items)
  | emptyObject {gap : List Char} : Space gap → Denotes ('{' :: (gap ++ ['}'])) (.object [])
  | object {inner : List Char} {members : List (String × Datum)} :
      DenotesList (DenotesField Denotes) inner members →
      Denotes ('{' :: (inner ++ ['}'])) (.object members)

/-- The datum of a whole text. -/
inductive DenotesDocument : List Char → Datum → Prop
  | mk {before text after : List Char} {datum : Datum} : Space before → Denotes text datum →
      Space after → DenotesDocument (before ++ (text ++ after)) datum

/-! ### First characters -/

/-- The text begins with a character that is neither space nor the given one. -/
def StartsApart (closing : Char) (text : List Char) : Prop :=
  ∃ c rest, text = c :: rest ∧ isSpace c = false ∧ c ≠ closing

theorem ne_of_isDigit {c d : Char} (hc : c.isDigit = true) (hd : d.isDigit = false) : c ≠ d := by
  intro h
  rw [h, hd] at hc
  cases hc

theorem isSpace_of_isDigit {c : Char} (h : c.isDigit = true) : isSpace c = false := by
  rw [Bool.eq_false_iff]
  intro hspace
  simp only [isSpace, Bool.or_eq_true, beq_iff_eq] at hspace
  rcases hspace with ((rfl | rfl) | rfl) | rfl <;> exact absurd h (by decide)

theorem Digits.exists_cons {text : List Char} (h : Digits text) :
    ∃ c rest, text = c :: rest ∧ c.isDigit = true := by
  obtain ⟨c, rest, rfl⟩ := List.exists_cons_of_ne_nil h.1
  exact ⟨c, rest, rfl, h.2 c List.mem_cons_self⟩

/-- A number begins with a minus sign or a digit. -/
theorem DenotesNumber.exists_cons {text : List Char} {value : Rat} (h : DenotesNumber text value) :
    ∃ c rest, text = c :: rest ∧ (c = '-' ∨ c.isDigit = true) := by
  cases h with
  | mk hsign hwhole hfraction hexponent =>
      cases hsign with
      | plus =>
          obtain ⟨c, rest, rfl, hc⟩ := hwhole.digits.exists_cons
          exact ⟨c, _, rfl, .inr hc⟩
      | minus => exact ⟨'-', _, rfl, .inl rfl⟩

theorem Denotes.starts {text : List Char} {datum : Datum} (h : Denotes text datum) :
    StartsApart ']' text := by
  cases h with
  | null => exact ⟨'n', _, rfl, by decide, by decide⟩
  | true => exact ⟨'t', _, rfl, by decide, by decide⟩
  | false => exact ⟨'f', _, rfl, by decide, by decide⟩
  | number hnumber =>
      obtain ⟨c, rest, rfl, hc⟩ := hnumber.exists_cons
      rcases hc with rfl | hc
      · exact ⟨'-', rest, rfl, by decide, by decide⟩
      · exact ⟨c, rest, rfl, isSpace_of_isDigit hc, ne_of_isDigit hc rfl⟩
  | string _ => exact ⟨'"', _, rfl, by decide, by decide⟩
  | emptyArray _ => exact ⟨'[', _, rfl, by decide, by decide⟩
  | array _ => exact ⟨'[', _, rfl, by decide, by decide⟩
  | emptyObject _ => exact ⟨'{', _, rfl, by decide, by decide⟩
  | object _ => exact ⟨'{', _, rfl, by decide, by decide⟩

theorem DenotesField.starts {α : Type} {Item : List Char → α → Prop} {text : List Char}
    {field : String × α} (h : DenotesField Item text field) : StartsApart '}' text := by
  cases h with
  | mk _ _ _ _ => exact ⟨'"', _, rfl, by decide, by decide⟩

end Edl.Json
