/-
Reading JSON texts.

Lists are read item by item up to the closing bracket, and values by their first character.
Reading follows the text from left to right and never turns back; that it finds exactly the texts
which the grammar describes is what this module proves.

Nesting and length are counted down, so that reading ends.  A text is never nested deeper or longer
than it has characters, so the count does not run out on a text that denotes something.

Main definitions:

* `Edl.Json.readList`, `Edl.Json.readEnclosed`, `Edl.Json.readField` — the parts of arrays and
  objects, for any reader of their items;
* `Edl.Json.Mark` — the characters that end what stands before them;
* `Edl.Json.Reader.Complete` — that a reader finds what has a meaning, up to a given length;
* `Edl.Json.readValue`, `Edl.Json.read` — values and whole texts.

Main results:

* `Edl.Json.sound_readValue` — what is taken off denotes what was read;
* `Edl.Json.complete_readValue` — what denotes a datum is taken off;
* `Edl.Json.read_eq_some_iff` — **reading finds the texts of the grammar, and their data**.
-/

import Edl.Proofs.JsonTokens

set_option relaxedAutoImplicit false
set_option autoImplicit false

namespace Edl.Json

/-! ### Lists -/

/-- Items with commas between them up to the closing bracket, at most `bound` of them. -/
def readList {α : Type} (readItem : Reader α) (closing : Char) : (bound : Nat) → Reader (List α)
  | 0, _ => none
  | bound + 1, text => do
      let (value, rest) ← readItem (skipSpace text)
      let (mark, rest) ← readMark rest
      if mark = closing then some ([value], rest)
      else if mark = ',' then
        (readList readItem closing bound rest).map fun p => (value :: p.1, p.2)
      else none

/-- What stands behind an opening bracket, with its closing bracket. -/
def readEnclosed {α : Type} (readItem : Reader α) (closing : Char) : Reader (List α) :=
  fun text => do
    let (mark, rest) ← readMark text
    if mark = closing then some ([], rest) else readList readItem closing text.length text

/-- A name, a colon and an item. -/
def readField {α : Type} (readItem : Reader α) : Reader (String × α) := fun text => do
  let rest ← Text.after? ['"'] text
  let (name, rest) ← readString rest
  let (mark, rest) ← readMark rest
  if mark = ':' then (readItem (skipSpace rest)).map fun p => ((name, p.1), p.2) else none

/-- What may stand between two brackets: space, or items. -/
def DenotesEnclosed {α : Type} (Item : List Char → α → Prop) (text : List Char)
    (values : List α) : Prop :=
  Space text ∧ values = [] ∨ DenotesList Item text values

section

variable {α : Type} {readItem : Reader α} {Item : List Char → α → Prop} {closing : Char}

theorem Reader.Sound.readList (hsound : readItem.Sound Item) (bound : Nat)
    {text rest : List Char} {values : List α}
    (h : Json.readList readItem closing bound text = some (values, rest)) :
    ∃ inner, text = inner ++ closing :: rest ∧ DenotesList Item inner values := by
  induction bound generalizing text values with
  | zero => cases h
  | succ bound ih =>
      simp only [Json.readList, Option.bind_eq_bind, Option.bind_eq_some_iff, Prod.exists] at h
      obtain ⟨value, _, hitem, mark, _, hmark, h⟩ := h
      obtain ⟨before, hbefore, htext⟩ := exists_space text
      obtain ⟨item, hskip, hvalue⟩ := hsound _ _ _ hitem
      obtain ⟨after, hafter, rfl⟩ := exists_space_of_readMark hmark
      rw [hskip] at htext
      split at h
      · next hclosing =>
          obtain ⟨rfl, rfl⟩ := Prod.mk.inj (Option.some.inj h)
          exact ⟨before ++ (item ++ after), by simp [htext, hclosing], .last hbefore hvalue hafter⟩
      · split at h
        · next hcomma =>
            obtain ⟨values, hlist, rfl⟩ := map_fst_eq_some_iff.1 h
            obtain ⟨inner, rfl, hinner⟩ := ih hlist
            exact ⟨before ++ (item ++ (after ++ ',' :: inner)), by simp [htext, hcomma],
              .more hbefore hvalue hafter hinner⟩
        · cases h

theorem Reader.Sound.readEnclosed (hsound : readItem.Sound Item) {text rest : List Char}
    {values : List α} (h : Json.readEnclosed readItem closing text = some (values, rest)) :
    ∃ inner, text = inner ++ closing :: rest ∧ DenotesEnclosed Item inner values := by
  simp only [Json.readEnclosed, Option.bind_eq_bind, Option.bind_eq_some_iff, Prod.exists] at h
  obtain ⟨mark, _, hmark, h⟩ := h
  split at h
  · next hclosing =>
      obtain ⟨rfl, rfl⟩ := Prod.mk.inj (Option.some.inj h)
      obtain ⟨gap, hgap, htext⟩ := exists_space_of_readMark hmark
      exact ⟨gap, by rw [htext, hclosing], .inl ⟨hgap, rfl⟩⟩
  · obtain ⟨inner, htext, hinner⟩ := hsound.readList _ h
    exact ⟨inner, htext, .inr hinner⟩

theorem Reader.Sound.readField (hsound : readItem.Sound Item) :
    (Json.readField readItem).Sound (DenotesField Item) := by
  intro text field rest h
  simp only [Json.readField, Option.bind_eq_bind, Option.bind_eq_some_iff, Prod.exists,
    Text.after?_eq_some_iff] at h
  obtain ⟨_, rfl, name, _, hname, mark, _, hmark, h⟩ := h
  obtain ⟨written, chars, rfl, hwritten, rfl⟩ := sound_readString hname
  obtain ⟨before, hbefore, rfl⟩ := exists_space_of_readMark hmark
  split at h
  · next hcolon =>
      obtain ⟨value, hitem, rfl⟩ := map_fst_eq_some_iff.1 h
      obtain ⟨after, hafter, hrest⟩ := exists_space _
      obtain ⟨item, hskip, hvalue⟩ := hsound _ _ _ hitem
      rw [hskip] at hrest
      exact ⟨_, by simp [hrest, hcolon], .mk hwritten hbefore hafter hvalue⟩
  · cases h

/-- The reader takes off what has a meaning, up to the given length, wherever it ends. -/
def Reader.Complete (reader : Reader α) (Meaning : List Char → α → Prop) (size : Nat) : Prop :=
  ∀ part value rest, part.length ≤ size → Meaning part value → Ends rest →
    reader (part ++ rest) = some (value, rest)

theorem Ends.space_append {gap rest : List Char} (hrest : Ends rest) (hgap : Space gap) :
    Ends (gap ++ rest) := by
  cases gap with
  | nil => exact hrest
  | cons c gap =>
      have hc := hgap c List.mem_cons_self
      intro d hd
      obtain rfl : c = d := by simpa using hd
      simp only [isSpace, Bool.or_eq_true, beq_iff_eq] at hc
      rcases hc with ((rfl | rfl) | rfl) | rfl <;> decide

/-- The character is not space, and no number can go on with it. -/
abbrev Mark (c : Char) : Prop :=
  isSpace c = false ∧ c.isDigit = false ∧ c ≠ '.' ∧ c ≠ 'e' ∧ c ≠ 'E'

theorem Mark.ends {c : Char} {rest : List Char} (h : Mark c) : Ends (c :: rest) := by
  intro d hd
  obtain rfl : c = d := Option.some.inj hd
  exact h.2

theorem DenotesList.readList_append {size : Nat} (hcomplete : readItem.Complete Item size)
    (hstarts : ∀ part value, Item part value → StartsApart closing part)
    (hclosing : Mark closing) (hcomma : ',' ≠ closing) {inner rest : List Char} {values : List α}
    (h : DenotesList Item inner values) (hsize : inner.length ≤ size) {bound : Nat}
    (hbound : inner.length < bound) :
    readList readItem closing bound (inner ++ closing :: rest) = some (values, rest) := by
  induction h generalizing bound with
  | @last before item after value hbefore hitem hafter =>
      cases bound with
      | zero => omega
      | succ bound =>
          have hlength : item.length ≤ size := by
            simp only [List.length_append] at hsize
            omega
          have hends : Ends (after ++ closing :: rest) :=
            hclosing.ends.space_append hafter
          rw [readList, List.append_assoc, List.append_assoc,
            (hstarts _ _ hitem).skipSpace_append hbefore, hcomplete _ _ _ hlength hitem hends]
          simp only [Option.bind_eq_bind, Option.bind_some,
            readMark_append hafter hclosing.1, if_true]
  | @more before item after tail value values hbefore hitem hafter htail ih =>
      cases bound with
      | zero => omega
      | succ bound =>
          simp only [List.length_append, List.length_cons] at hsize hbound
          have hlength : item.length ≤ size := by omega
          have hends : Ends (after ++ ',' :: (tail ++ closing :: rest)) :=
            Mark.ends (by decide) |>.space_append hafter
          have hsplit : before ++ (item ++ (after ++ ',' :: tail)) ++ closing :: rest =
              before ++ (item ++ (after ++ ',' :: (tail ++ closing :: rest))) := by
            simp
          rw [readList, hsplit, (hstarts _ _ hitem).skipSpace_append hbefore,
            hcomplete _ _ _ hlength hitem hends]
          simp only [Option.bind_eq_bind, Option.bind_some,
            readMark_append hafter (show isSpace ',' = false by decide),
            if_neg hcomma, if_true]
          rw [ih (by omega) (by omega)]
          rfl

theorem DenotesList.starts (hstarts : ∀ part value, Item part value → StartsApart closing part)
    {inner : List Char} {values : List α} (h : DenotesList Item inner values) :
    ∃ before c rest, Space before ∧ inner = before ++ c :: rest ∧ isSpace c = false ∧
      c ≠ closing := by
  cases h with
  | last hbefore hitem _ =>
      obtain ⟨c, rest, rfl, hspace, hc⟩ := hstarts _ _ hitem
      exact ⟨_, c, _, hbefore, rfl, hspace, hc⟩
  | more hbefore hitem _ _ =>
      obtain ⟨c, rest, rfl, hspace, hc⟩ := hstarts _ _ hitem
      exact ⟨_, c, _, hbefore, rfl, hspace, hc⟩

theorem DenotesEnclosed.readEnclosed_append {size : Nat}
    (hcomplete : readItem.Complete Item size)
    (hstarts : ∀ part value, Item part value → StartsApart closing part)
    (hclosing : Mark closing) (hcomma : ',' ≠ closing) {inner rest : List Char} {values : List α}
    (h : DenotesEnclosed Item inner values) (hsize : inner.length ≤ size) :
    readEnclosed readItem closing (inner ++ closing :: rest) = some (values, rest) := by
  rcases h with ⟨hgap, rfl⟩ | hlist
  · rw [readEnclosed, readMark_append hgap hclosing.1]
    simp
  · have hread : readList readItem closing (inner ++ closing :: rest).length
        (inner ++ closing :: rest) = some (values, rest) :=
      hlist.readList_append hcomplete hstarts hclosing hcomma hsize (by simp)
    -- no item begins with the closing bracket, so the list is not taken for an empty one
    obtain ⟨before, c, tail, hbefore, rfl, hspace, hc⟩ := hlist.starts hstarts
    have hmark : readMark (before ++ c :: tail ++ closing :: rest) =
        some (c, tail ++ closing :: rest) := by
      rw [List.append_assoc, List.cons_append, readMark_append hbefore hspace]
    rw [readEnclosed, hmark]
    simpa [hc] using hread

theorem Reader.Complete.readField {size : Nat} (hcomplete : readItem.Complete Item size)
    (hstarts : ∀ part value, Item part value → StartsApart closing part) :
    (Json.readField readItem).Complete (DenotesField Item) size := by
  intro part field rest hsize h hrest
  cases h with
  | @mk name before after item text value hname hbefore hafter hitem =>
      have hlength : item.length ≤ size := by
        simp only [List.length_append, List.length_cons] at hsize
        omega
      have hsplit : '"' :: (name ++ '"' :: (before ++ ':' :: (after ++ item))) ++ rest =
          ['"'] ++ (name ++ '"' :: (before ++ ':' :: (after ++ (item ++ rest)))) := by
        simp
      rw [hsplit, Json.readField, Text.after?_eq_some_iff.2 rfl]
      simp only [Option.bind_eq_bind, Option.bind_some, hname.readString_append,
        readMark_append hbefore (show isSpace ':' = false by decide), if_true,
        (hstarts _ _ hitem).skipSpace_append hafter, hcomplete _ _ _ hlength hitem hrest]
      rfl

end

/-! ### Values -/

/-- A word that stands for a datum. -/
def readWord (word : List Char) (datum : Datum) : Reader Datum := fun text =>
  (Text.after? word text).map fun rest => (datum, rest)

/-- A value without space around it, nested at most `bound` deep. -/
def readValue : (bound : Nat) → Reader Datum
  | 0, _ => none
  | _ + 1, [] => none
  | bound + 1, c :: rest =>
      if c = '"' then (readString rest).map fun p => (.string p.1, p.2)
      else if c = '[' then
        (readEnclosed (readValue bound) ']' rest).map fun p => (.array p.1, p.2)
      else if c = '{' then
        (readEnclosed (readField (readValue bound)) '}' rest).map fun p => (.object p.1, p.2)
      else if c = 'n' then readWord ['u', 'l', 'l'] .null rest
      else if c = 't' then readWord ['r', 'u', 'e'] (.bool true) rest
      else if c = 'f' then readWord ['a', 'l', 's', 'e'] (.bool false) rest
      else (readNumber (c :: rest)).map fun p => (.number p.1, p.2)

/-- The datum of a whole text. -/
def read (text : List Char) : Option Datum := do
  let (datum, rest) ← readValue text.length (skipSpace text)
  if skipSpace rest = [] then some datum else none

theorem readWord_eq_some_iff {word text rest : List Char} {datum value : Datum} :
    readWord word datum text = some (value, rest) ↔ text = word ++ rest ∧ datum = value := by
  constructor
  · intro h
    obtain ⟨tail, hafter, heq⟩ := Option.map_eq_some_iff.1 h
    obtain ⟨hdatum, rfl⟩ := Prod.mk.inj heq
    exact ⟨Text.after?_eq_some_iff.1 hafter, hdatum⟩
  · intro h
    obtain ⟨htext, rfl⟩ := h
    rw [readWord, Text.after?_eq_some_iff.2 htext]
    rfl

theorem denotes_array {inner : List Char} {items : List Datum}
    (h : DenotesEnclosed Denotes inner items) :
    Denotes ('[' :: (inner ++ [']'])) (.array items) := by
  rcases h with ⟨hgap, rfl⟩ | hlist
  · exact .emptyArray hgap
  · exact .array hlist

theorem denotes_object {inner : List Char} {members : List (String × Datum)}
    (h : DenotesEnclosed (DenotesField Denotes) inner members) :
    Denotes ('{' :: (inner ++ ['}'])) (.object members) := by
  rcases h with ⟨hgap, rfl⟩ | hlist
  · exact .emptyObject hgap
  · exact .object hlist

/-- What is taken off denotes what was read. -/
theorem sound_readValue (bound : Nat) : (readValue bound).Sound Denotes := by
  induction bound with
  | zero =>
      intro text value rest h
      cases h
  | succ bound ih =>
      intro text value rest h
      cases text with
      | nil => cases h
      | cons c text =>
          rw [readValue] at h
          split at h
          · next hc =>
              obtain ⟨s, hread, rfl⟩ := map_fst_eq_some_iff.1 h
              obtain ⟨written, chars, rfl, hwritten, rfl⟩ := sound_readString hread
              exact ⟨'"' :: (written ++ ['"']), by simp [hc], .string hwritten⟩
          split at h
          · next hc =>
              obtain ⟨items, hread, rfl⟩ := map_fst_eq_some_iff.1 h
              obtain ⟨inner, rfl, hinner⟩ := ih.readEnclosed hread
              exact ⟨'[' :: (inner ++ [']']), by simp [hc], denotes_array hinner⟩
          split at h
          · next hc =>
              obtain ⟨members, hread, rfl⟩ := map_fst_eq_some_iff.1 h
              obtain ⟨inner, rfl, hinner⟩ := ih.readField.readEnclosed hread
              exact ⟨'{' :: (inner ++ ['}']), by simp [hc], denotes_object hinner⟩
          split at h
          · next hc =>
              obtain ⟨rfl, rfl⟩ := readWord_eq_some_iff.1 h
              exact ⟨['n', 'u', 'l', 'l'], by simp [hc], .null⟩
          split at h
          · next hc =>
              obtain ⟨rfl, rfl⟩ := readWord_eq_some_iff.1 h
              exact ⟨['t', 'r', 'u', 'e'], by simp [hc], .true⟩
          split at h
          · next hc =>
              obtain ⟨rfl, rfl⟩ := readWord_eq_some_iff.1 h
              exact ⟨['f', 'a', 'l', 's', 'e'], by simp [hc], .false⟩
          · obtain ⟨number, hread, rfl⟩ := map_fst_eq_some_iff.1 h
            obtain ⟨part, htext, hnumber⟩ := sound_readNumber _ _ _ hread
            exact ⟨part, htext, .number hnumber⟩

/-- A number is read as a number: it begins with none of the characters that open other values. -/
theorem DenotesNumber.readValue_append {bound : Nat} {text rest : List Char} {value : Rat}
    (h : DenotesNumber text value) (hrest : Ends rest) :
    readValue (bound + 1) (text ++ rest) = some (.number value, rest) := by
  obtain ⟨c, tail, rfl, hc⟩ := h.exists_cons
  have hother {d : Char} (hminus : '-' ≠ d) (hdigit : d.isDigit = false) : c ≠ d := by
    rcases hc with rfl | hc
    · exact hminus
    · exact ne_of_isDigit hc hdigit
  have hread := h.readNumber_append hrest
  rw [List.cons_append] at hread ⊢
  rw [readValue, if_neg (hother (by decide) rfl), if_neg (hother (by decide) rfl),
    if_neg (hother (by decide) rfl), if_neg (hother (by decide) rfl),
    if_neg (hother (by decide) rfl), if_neg (hother (by decide) rfl), hread]
  rfl

section

variable {bound : Nat} (hcomplete : (readValue bound).Complete Denotes bound)
include hcomplete

theorem readValue_array {inner rest : List Char} {items : List Datum}
    (h : DenotesEnclosed Denotes inner items)
    (hsize : ('[' :: (inner ++ [']'])).length ≤ bound + 1) :
    readValue (bound + 1) ('[' :: (inner ++ [']']) ++ rest) = some (.array items, rest) := by
  have hread : readEnclosed (readValue bound) ']' (inner ++ ']' :: rest) = some (items, rest) := by
    apply h.readEnclosed_append hcomplete (fun _ _ h => h.starts) (by decide) (by decide)
    simp only [List.length_cons, List.length_append] at hsize
    omega
  rw [List.cons_append, List.append_assoc, List.singleton_append, readValue, if_neg (by decide),
    if_pos rfl, hread]
  rfl

theorem readValue_object {inner rest : List Char} {members : List (String × Datum)}
    (h : DenotesEnclosed (DenotesField Denotes) inner members)
    (hsize : ('{' :: (inner ++ ['}'])).length ≤ bound + 1) :
    readValue (bound + 1) ('{' :: (inner ++ ['}']) ++ rest) = some (.object members, rest) := by
  have hfield := hcomplete.readField fun _ _ h => h.starts
  have hread : readEnclosed (readField (readValue bound)) '}' (inner ++ '}' :: rest) =
      some (members, rest) := by
    apply h.readEnclosed_append hfield (fun _ _ h => h.starts) (by decide) (by decide)
    simp only [List.length_cons, List.length_append] at hsize
    omega
  rw [List.cons_append, List.append_assoc, List.singleton_append, readValue, if_neg (by decide),
    if_neg (by decide), if_pos rfl, hread]
  rfl

end

/-- What denotes a datum is taken off, if no number goes on behind it. -/
theorem complete_readValue (bound : Nat) : (readValue bound).Complete Denotes bound := by
  -- what brackets enclose is shorter than they are with it, so one less is enough inside
  induction bound with
  | zero =>
      intro part datum rest hsize h hrest
      obtain ⟨c, tail, rfl, -, -⟩ := h.starts
      simp at hsize
  | succ bound ih =>
      intro part datum rest hsize h hrest
      cases h with
      | null => rfl
      | true => rfl
      | false => rfl
      | number hnumber => exact hnumber.readValue_append hrest
      | string hwritten =>
          rw [List.cons_append, List.append_assoc, List.singleton_append, readValue, if_pos rfl,
            hwritten.readString_append]
          rfl
      | emptyArray hgap => exact readValue_array ih (.inl ⟨hgap, rfl⟩) hsize
      | array hlist => exact readValue_array ih (.inr hlist) hsize
      | emptyObject hgap => exact readValue_object ih (.inl ⟨hgap, rfl⟩) hsize
      | object hlist => exact readValue_object ih (.inr hlist) hsize

/-! ### Whole texts -/

/-- Space ends everything that could stand before it. -/
theorem ends_of_space {gap : List Char} (h : Space gap) : Ends gap := by
  have hnil : Ends [] := fun c hc => by cases hc
  rw [← List.append_nil gap]
  exact hnil.space_append h

/-- **Reading finds exactly the texts of the grammar, and gives their data.** -/
theorem read_eq_some_iff {text : List Char} {datum : Datum} :
    read text = some datum ↔ DenotesDocument text datum := by
  constructor
  · intro h
    simp only [read, Option.bind_eq_bind, Option.bind_eq_some_iff, Prod.exists] at h
    obtain ⟨found, rest, hread, h⟩ := h
    obtain ⟨before, hbefore, htext⟩ := exists_space text
    obtain ⟨after, hafter, hrest⟩ := exists_space rest
    obtain ⟨part, hskip, hpart⟩ := sound_readValue _ _ _ _ hread
    split at h
    · next hnil =>
        obtain rfl := Option.some.inj h
        rw [hnil, List.append_nil] at hrest
        rw [htext, hskip, hrest]
        exact .mk hbefore hpart hafter
    · cases h
  · intro h
    cases h with
    | @mk before part after datum hbefore hpart hafter =>
        have hsize : part.length ≤ (before ++ (part ++ after)).length := by
          simp only [List.length_append]
          omega
        rw [read, hpart.starts.skipSpace_append hbefore,
          complete_readValue _ _ _ _ hsize hpart (ends_of_space hafter)]
        simp [skipSpace_of_space hafter]

end Edl.Json
