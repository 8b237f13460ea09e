/-
What a written document denotes.

A document is written so that the grammar of JSON gives it back: each character of a string by
itself, by a letter or by one or two UTF-16 units, each number by its decimal digits, and items
with nothing but space around their commas.  Whatever a string holds, only ASCII characters are
written.

Main definitions:

* `Edl.Json.datum` — what a document stands for;
* `Edl.Json.Ascii` — a text has only ASCII characters.

Main results:

* `Edl.Json.escapeChar_cases` — the four ways in which a character is written;
* `Edl.Json.denotes_escapeChar`, `Edl.Json.denotes_toString`, `Edl.Json.denotes_bracket` — the
  written forms of characters, numbers and lists;
* `Edl.Json.denotes_renderAt` — **a written document denotes what it stands for**;
* `Edl.Json.ascii_renderAt` — **a written document is ASCII**.
-/

import Mathlib.Data.List.Forall2
import Edl.Proofs.JsonReader
import Edl.Proofs.Legibility

set_option relaxedAutoImplicit false
set_option autoImplicit false

namespace Edl.Json

/-! ### Hexadecimal digits -/

theorem hexValue?_hexDigit {n : Nat} (h : n < 16) : hexValue? (Text.hexDigit n) = some n := by
  have hall : ∀ k : Fin 16, hexValue? (Text.hexDigit k) = some k.val := by decide
  exact hall ⟨n, h⟩

theorem hexNumber?_append {before : Nat} {digits rest : List Char} :
    hexNumber? before (digits ++ rest) =
      (hexNumber? before digits).bind fun value => hexNumber? value rest := by
  induction digits generalizing before with
  | nil => rfl
  | cons c digits ih =>
      rw [List.cons_append, hexNumber?, hexNumber?]
      cases hexValue? c with
      | none => rfl
      | some value => exact ih

/-- The digits of a number give it back, if they are enough. -/
theorem hexNumber?_hex (width : Nat) {n : Nat} (h : n < Nat.pow 16 width) :
    hexNumber? 0 (Text.hex width n) = some n := by
  induction width generalizing n with
  | zero =>
      obtain rfl : n = 0 := Nat.lt_one_iff.1 h
      rfl
  | succ width ih =>
      have hhigh : n / 16 < Nat.pow 16 width := by
        rw [Nat.pow_eq, Nat.pow_succ] at h
        rw [Nat.pow_eq]
        omega
      have hlow : n % 16 < 16 := Nat.mod_lt _ (by decide)
      rw [Text.hex, hexNumber?_append, ih hhigh, Option.bind_some, hexNumber?,
        hexValue?_hexDigit hlow]
      exact congrArg some (Nat.div_add_mod n 16)

theorem denotesUnit_hex {unit : Nat} (h : unit < 0x10000) : DenotesUnit (Text.hex 4 unit) unit :=
  ⟨Text.length_hex 4 unit, hexNumber?_hex 4 h⟩

/-! ### Strings -/

/-- No character has the number of a surrogate. -/
theorem not_surrogate (c : Char) :
    isHighSurrogate c.toNat = false ∧ isLowSurrogate c.toNat = false := by
  have hvalid : c.toNat < 0xD800 ∨ 0xDFFF < c.toNat ∧ c.toNat < 0x110000 := c.valid
  simp only [isHighSurrogate, isLowSurrogate, Bool.and_eq_false_iff, decide_eq_false_iff_not]
  omega

theorem denotes_unit {c : Char} (h : c.toNat < 0x10000) : DenotesChar (escapeUnit c.toNat) c := by
  have hunit := DenotesChar.unit (denotesUnit_hex h) (not_surrogate c).1 (not_surrogate c).2
  rwa [Char.ofNat_toNat] at hunit

/-- Two units make up the character that lies `offset` above the first plane. -/
theorem denotes_pair {offset : Nat} (h : offset < 0x100000) :
    DenotesChar (escapeUnit (0xD800 + offset / 0x400) ++ escapeUnit (0xDC00 + offset % 0x400))
      (Char.ofNat (0x10000 + offset)) := by
  have hhigh : isHighSurrogate (0xD800 + offset / 0x400) = true := by
    simp only [isHighSurrogate, Bool.and_eq_true, decide_eq_true_eq]
    omega
  have hlow : isLowSurrogate (0xDC00 + offset % 0x400) = true := by
    simp only [isLowSurrogate, Bool.and_eq_true, decide_eq_true_eq]
    omega
  have hnumber : 0x10000 + (0xD800 + offset / 0x400 - 0xD800) * 0x400 +
      (0xDC00 + offset % 0x400 - 0xDC00) = 0x10000 + offset := by
    omega
  have hpair := DenotesChar.pair (denotesUnit_hex (by omega)) hhigh (denotesUnit_hex (by omega))
    hlow
  rwa [combine, hnumber] at hpair

/-- A character is written by a letter, by itself, by its unit or by its two units. -/
theorem escapeChar_cases (c : Char) :
    (∃ letter, (letter, c) ∈ escapes ∧ escapeChar c = ['\\', letter]) ∨
    (0x20 ≤ c.toNat ∧ c.toNat < 0x7F ∧ c ≠ '"' ∧ c ≠ '\\' ∧ escapeChar c = [c]) ∨
    (c.toNat < 0x10000 ∧ escapeChar c = escapeUnit c.toNat) ∨
    ∃ offset, offset < 0x100000 ∧ c = Char.ofNat (0x10000 + offset) ∧
      escapeChar c =
        escapeUnit (0xD800 + offset / 0x400) ++ escapeUnit (0xDC00 + offset % 0x400) := by
  generalize htext : escapeChar c = text
  rw [escapeChar] at htext
  split at htext
  · next hself =>
      simp only [Bool.or_eq_true, decide_eq_true_eq] at hself
      rcases hself with rfl | rfl
      · exact .inl ⟨'"', by decide, htext.symm⟩
      · exact .inl ⟨'\\', by decide, htext.symm⟩
  next hself =>
  simp only [Bool.or_eq_true, decide_eq_true_eq, not_or] at hself
  split at htext
  · next hc => exact .inl ⟨'n', hc ▸ by decide, htext.symm⟩
  split at htext
  · next hc => exact .inl ⟨'r', hc ▸ by decide, htext.symm⟩
  split at htext
  · next hc => exact .inl ⟨'t', hc ▸ by decide, htext.symm⟩
  split at htext
  · next hc =>
      obtain rfl : c = '\x08' := Char.toNat_inj.1 hc
      exact .inl ⟨'b', by decide, htext.symm⟩
  split at htext
  · next hc =>
      obtain rfl : c = '\x0c' := Char.toNat_inj.1 hc
      exact .inl ⟨'f', by decide, htext.symm⟩
  split at htext
  · next hplain =>
      simp only [Bool.and_eq_true, decide_eq_true_eq] at hplain
      exact .inr (.inl ⟨hplain.1, hplain.2, hself.1, hself.2, htext.symm⟩)
  split at htext
  · next hc => exact .inr (.inr (.inl ⟨hc, htext.symm⟩))
  · next hc =>
      have hvalid : c.toNat < 0xD800 ∨ 0xDFFF < c.toNat ∧ c.toNat < 0x110000 := c.valid
      have hsum : 0x10000 + (c.toNat - 0x10000) = c.toNat := by omega
      refine .inr (.inr (.inr ⟨c.toNat - 0x10000, by omega, ?_, htext.symm⟩))
      rw [hsum, Char.ofNat_toNat]

/-- Every character is denoted by its written form. -/
theorem denotes_escapeChar (c : Char) : DenotesChar (escapeChar c) c := by
  obtain ⟨letter, hletter, heq⟩ | ⟨hlow, -, hquote, hbackslash, heq⟩ | ⟨hplane, heq⟩ |
    ⟨offset, hoffset, hc, heq⟩ := escapeChar_cases c
  · rw [heq]
    exact .letter hletter
  · rw [heq]
    exact .plain hlow hquote hbackslash
  · rw [heq]
    exact denotes_unit hplane
  · rw [heq, hc]
    exact denotes_pair hoffset

example : escapeChar '😀' = "\\ud83d\\ude00".toList := by decide

theorem denotes_flatMap_escapeChar (text : List Char) :
    DenotesText (text.flatMap escapeChar) text := by
  induction text with
  | nil => exact .nil
  | cons c text ih => exact .cons (denotes_escapeChar c) ih

theorem denotes_renderString (s : String) : Denotes (renderString s) (.string s) := by
  have hstring := Denotes.string (denotes_flatMap_escapeChar s.toList)
  rwa [String.ofList_toList] at hstring

/-! ### Numbers -/

/-- A number in decimal has no leading zero. -/
theorem whole_toString (n : Nat) : Whole (toString n).toList := by
  refine ⟨⟨?_, fun c hc => isDigit_of_mem_toString hc⟩, ?_⟩
  · rw [toList_toString]
    exact Nat.toDigits_ne_nil
  · -- the first digit of a large number is that of a tenth of it
    induction n using Nat.strongRecOn with
    | ind n ih =>
        intro hzero
        rcases Nat.lt_or_ge n 10 with hsmall | hlarge
        · rw [toList_toString, Nat.toDigits_of_lt_base hsmall] at hzero ⊢
          exact congrArg (fun c => [c]) (Option.some.inj hzero)
        · rw [toList_toString, Nat.toDigits_of_base_le (by decide) hlarge,
            List.head?_append_of_ne_nil _ Nat.toDigits_ne_nil, ← toList_toString] at hzero
          have hfront := ih (n / 10) (by omega) hzero
          have hvalue := ofDigitChars_toString (n / 10)
          rw [hfront] at hvalue
          have hdiv : n / 10 = 0 := hvalue.symm
          omega

theorem denotes_toString (n : Nat) : DenotesNumber (toString n).toList (mkRat n 1) := by
  have hnumber := DenotesNumber.mk .plus (whole_toString n) .absent .absent
  have hamount : amount false ((toString n).toList ++ []) 0 0 = mkRat n 1 := by
    rw [amount, List.append_nil, numeral, ofDigitChars_toString]
    simp [signed]
  rw [List.length_nil, hamount] at hnumber
  simpa using hnumber

/-! ### Documents -/

mutual

/-- What a document stands for. -/
def datum : Json → Datum
  | null => .null
  | number n => .number (mkRat n 1)
  | string s => .string s
  | array items => .array (itemData items)
  | object fields => .object (fieldData fields)

/-- What the items of a list stand for. -/
def itemData : List Json → List Datum
  | [] => []
  | item :: items => datum item :: itemData items

/-- What the fields of an object stand for. -/
def fieldData : List (String × Json) → List (String × Datum)
  | [] => []
  | (key, value) :: fields => (key, datum value) :: fieldData fields

end

theorem space_newLine (depth : Nat) : Space (newLine depth) := by
  intro c hc
  rcases List.mem_cons.1 hc with rfl | hc
  · decide
  · rw [List.eq_of_mem_replicate hc]
    decide

section

variable {α : Type} {Item : List Char → α → Prop}

/-- Items on lines of their own, with commas between them. -/
theorem denotes_lines {item : List Char} {items : List (List Char)} {value : α} {values : List α}
    (hitem : Item item value) (hitems : List.Forall₂ Item items values) (depth depth' : Nat) :
    DenotesList Item (newLine depth ++ item ++
      items.flatMap (fun item => ',' :: (newLine depth ++ item)) ++ newLine depth')
      (value :: values) := by
  induction hitems generalizing item value with
  | nil =>
      have hlast := DenotesList.last (space_newLine depth) hitem (space_newLine depth')
      simpa using hlast
  | cons hnext _ ih =>
      have hmore := DenotesList.more (space_newLine depth) hitem space_nil (ih hnext)
      simpa using hmore

/-- What stands between the brackets of a written list. -/
theorem denotes_bracket {items : List (List Char)} {values : List α}
    (h : List.Forall₂ Item items values) (opening closing : Char) (depth : Nat) :
    ∃ inner, bracket opening closing depth items = opening :: (inner ++ [closing]) ∧
      DenotesEnclosed Item inner values := by
  cases h with
  | nil => exact ⟨[], rfl, .inl ⟨space_nil, rfl⟩⟩
  | cons hitem hitems => exact ⟨_, rfl, .inr (denotes_lines hitem hitems (depth + 1) depth)⟩

end

theorem denotes_field {key : String} {text : List Char} {value : Datum} (h : Denotes text value) :
    DenotesField Denotes (renderString key ++ ':' :: ' ' :: text) (key, value) := by
  have hgap : Space [' '] := by
    intro c hc
    obtain rfl := List.mem_singleton.1 hc
    decide
  have hfield := DenotesField.mk (denotes_flatMap_escapeChar key.toList) space_nil hgap h
  simpa [renderString] using hfield

mutual

/-- **A written document denotes what it stands for.** -/
theorem denotes_renderAt (depth : Nat) : (j : Json) → Denotes (renderAt depth j) (datum j)
  | null => by
      rw [renderAt, datum]
      exact .null
  | number n => by
      rw [renderAt, datum]
      exact .number (denotes_toString n)
  | string s => by
      rw [renderAt, datum]
      exact denotes_renderString s
  | array items => by
      obtain ⟨inner, heq, hinner⟩ :=
        denotes_bracket (denotes_renderItems (depth + 1) items) '[' ']' depth
      rw [renderAt, datum, heq]
      exact denotes_array hinner
  | object fields => by
      obtain ⟨inner, heq, hinner⟩ :=
        denotes_bracket (denotes_renderFields (depth + 1) fields) '{' '}' depth
      rw [renderAt, datum, heq]
      exact denotes_object hinner

theorem denotes_renderItems (depth : Nat) : (items : List Json) →
    List.Forall₂ Denotes (renderItems depth items) (itemData items)
  | [] => by
      rw [renderItems, itemData]
      exact .nil
  | item :: items => by
      rw [renderItems, itemData]
      exact .cons (denotes_renderAt depth item) (denotes_renderItems depth items)

theorem denotes_renderFields (depth : Nat) : (fields : List (String × Json)) →
    List.Forall₂ (DenotesField Denotes) (renderFields depth fields) (fieldData fields)
  | [] => by
      rw [renderFields, fieldData]
      exact .nil
  | (key, value) :: fields => by
      rw [renderFields, fieldData]
      exact .cons (denotes_field (denotes_renderAt depth value))
        (denotes_renderFields depth fields)

end

/-! ### ASCII -/

/-- All characters are ASCII characters. -/
def Ascii (text : List Char) : Prop :=
  ∀ c ∈ text, c.toNat < 128

@[simp] theorem ascii_nil : Ascii [] := by
  simp [Ascii]

@[simp] theorem ascii_cons {c : Char} {text : List Char} :
    Ascii (c :: text) ↔ c.toNat < 128 ∧ Ascii text := by
  simp [Ascii]

@[simp] theorem ascii_append {text text' : List Char} :
    Ascii (text ++ text') ↔ Ascii text ∧ Ascii text' := by
  simp only [Ascii, List.mem_append, or_imp, forall_and]

theorem ascii_flatMap {α : Type} {xs : List α} {f : α → List Char} (h : ∀ x ∈ xs, Ascii (f x)) :
    Ascii (xs.flatMap f) := by
  intro c hc
  obtain ⟨x, hx, hcx⟩ := List.mem_flatMap.1 hc
  exact h x hx c hcx

theorem ascii_hex (width n : Nat) : Ascii (Text.hex width n) := by
  induction width generalizing n with
  | zero => exact ascii_nil
  | succ width ih =>
      have hall : ∀ k : Fin 16, (Text.hexDigit k).toNat < 128 := by decide
      have hdigit := hall ⟨n % 16, Nat.mod_lt _ (by decide)⟩
      simpa [Text.hex, ih] using hdigit

theorem ascii_escapeUnit (unit : Nat) : Ascii (escapeUnit unit) := by
  simp [escapeUnit, ascii_hex]

theorem ascii_escapeChar (c : Char) : Ascii (escapeChar c) := by
  obtain ⟨letter, hletter, heq⟩ | ⟨-, hhigh, -, -, heq⟩ | ⟨-, heq⟩ | ⟨offset, -, -, heq⟩ :=
    escapeChar_cases c
  · have hall : ∀ p ∈ escapes, p.1.toNat < 128 := by decide
    rw [heq]
    simp [hall _ hletter]
  · rw [heq]
    simp only [ascii_cons, ascii_nil, and_true]
    omega
  · rw [heq]
    exact ascii_escapeUnit _
  · rw [heq]
    exact ascii_append.2 ⟨ascii_escapeUnit _, ascii_escapeUnit _⟩

theorem ascii_renderString (s : String) : Ascii (renderString s) := by
  have hchars : Ascii (s.toList.flatMap escapeChar) := ascii_flatMap fun c _ => ascii_escapeChar c
  simp [renderString, hchars]

theorem ascii_toString (n : Nat) : Ascii (toString n).toList := by
  intro c hc
  have hdigit := isDigit_of_mem_toString hc
  simp only [Char.isDigit, Bool.and_eq_true, decide_eq_true_eq] at hdigit
  exact Nat.lt_of_le_of_lt (UInt32.le_iff_toNat_le.1 hdigit.2) (by decide)

theorem ascii_newLine (depth : Nat) : Ascii (newLine depth) := by
  intro c hc
  have hspace := space_newLine depth c hc
  simp only [isSpace, Bool.or_eq_true, beq_iff_eq] at hspace
  rcases hspace with ((rfl | rfl) | rfl) | rfl <;> decide

theorem ascii_bracket {opening closing : Char} {items : List (List Char)}
    (hopening : opening.toNat < 128) (hclosing : closing.toNat < 128)
    (h : ∀ item ∈ items, Ascii item) (depth : Nat) :
    Ascii (bracket opening closing depth items) := by
  cases items with
  | nil => simp [bracket, hopening, hclosing]
  | cons item items =>
      have hitem := h item List.mem_cons_self
      have hitems : Ascii (items.flatMap fun item => ',' :: (newLine (depth + 1) ++ item)) := by
        apply ascii_flatMap
        intro other hother
        simp [ascii_newLine, h other (List.mem_cons_of_mem item hother)]
      simp [bracket, ascii_newLine, hopening, hclosing, hitem, hitems]

mutual

/-- **A written document is ASCII.** -/
theorem ascii_renderAt (depth : Nat) : (j : Json) → Ascii (renderAt depth j)
  | null => by simp [renderAt]
  | number n => by
      rw [renderAt]
      exact ascii_toString n
  | string s => by
      rw [renderAt]
      exact ascii_renderString s
  | array items => by
      rw [renderAt]
      exact ascii_bracket (by decide) (by decide) (ascii_renderItems (depth + 1) items) depth
  | object fields => by
      rw [renderAt]
      exact ascii_bracket (by decide) (by decide) (ascii_renderFields (depth + 1) fields) depth

theorem ascii_renderItems (depth : Nat) : (items : List Json) →
    ∀ text ∈ renderItems depth items, Ascii text
  | [] => by simp [renderItems]
  | item :: items => by
      rw [renderItems, List.forall_mem_cons]
      exact ⟨ascii_renderAt depth item, ascii_renderItems depth items⟩

theorem ascii_renderFields (depth : Nat) : (fields : List (String × Json)) →
    ∀ text ∈ renderFields depth fields, Ascii text
  | [] => by simp [renderFields]
  | (key, value) :: fields => by
      rw [renderFields, List.forall_mem_cons]
      refine ⟨?_, ascii_renderFields depth fields⟩
      simp [ascii_renderString, ascii_renderAt depth value]

end

end Edl.Json
