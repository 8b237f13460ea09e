/-
Reading the numbers and strings of JSON texts.

A reader takes something off the front of a text and gives what is left.  A number is taken as long
as it goes on, so it is found only where what follows cannot belong to it; a string is taken up to
the first quote that is not escaped, whatever follows.

Main definitions:

* `Edl.Json.Reader`, `Edl.Json.Reader.Sound` — readers, and that they take off what they should;
* `Edl.Json.skipSpace`, `Edl.Json.readMark` — space, and the character behind it;
* `Edl.Json.readNumber`, `Edl.Json.Ends` — numbers, and the texts that end them;
* `Edl.Json.readString` — strings behind their opening quote.

Main results:

* `Edl.Json.sound_readNumber`, `Edl.Json.sound_readString` — what is taken off denotes what was
  read;
* `Edl.Json.DenotesNumber.readNumber_append`, `Edl.Json.DenotesText.readString_append` — **what
  denotes a number or a string is taken off**.
-/

import Edl.Proofs.JsonGrammar
import Edl.Text.Search

set_option relaxedAutoImplicit false
set_option autoImplicit false

namespace Edl.Json

/-- Takes something off the front of a text, or refuses the text. -/
abbrev Reader (α : Type) := List Char → Option (α × List Char)

/-- What the reader takes off has the meaning that it gives. -/
def Reader.Sound {α : Type} (reader : Reader α) (Meaning : List Char → α → Prop) : Prop :=
  ∀ text value rest, reader text = some (value, rest) →
    ∃ part, text = part ++ rest ∧ Meaning part value

theorem map_fst_eq_some_iff {α β : Type} {found : Option (α × List Char)} {f : α → β} {value : β}
    {rest : List Char} : (found.map fun p => (f p.1, p.2)) = some (value, rest) ↔
      ∃ x, found = some (x, rest) ∧ f x = value := by
  constructor
  · intro h
    obtain ⟨⟨x, _⟩, rfl, heq⟩ := Option.map_eq_some_iff.1 h
    obtain ⟨hvalue, rfl⟩ := Prod.mk.inj heq
    exact ⟨x, rfl, hvalue⟩
  · intro h
    obtain ⟨x, rfl, rfl⟩ := h
    rfl

/-! ### Space -/

/-- The text without the space in front of it. -/
def skipSpace (text : List Char) : List Char :=
  text.dropWhile isSpace

theorem exists_space (text : List Char) :
    ∃ before, Space before ∧ text = before ++ skipSpace text :=
  ⟨text.takeWhile isSpace, List.all_eq_true.1 List.all_takeWhile,
    List.takeWhile_append_dropWhile.symm⟩

theorem skipSpace_append {before text : List Char} (h : Space before) :
    skipSpace (before ++ text) = skipSpace text :=
  List.dropWhile_append_of_pos h

theorem skipSpace_cons {c : Char} {text : List Char} (h : isSpace c = false) :
    skipSpace (c :: text) = c :: text := by
  simp [skipSpace, h]

theorem StartsApart.skipSpace_append {closing : Char} {before text rest : List Char}
    (h : StartsApart closing text) (hbefore : Space before) :
    skipSpace (before ++ (text ++ rest)) = text ++ rest := by
  obtain ⟨c, tail, rfl, hc, -⟩ := h
  rw [Json.skipSpace_append hbefore, List.cons_append, skipSpace_cons hc]

theorem skipSpace_of_space {text : List Char} (h : Space text) : skipSpace text = [] := by
  have hskip : skipSpace (text ++ []) = skipSpace [] := skipSpace_append h
  rwa [List.append_nil] at hskip

/-- The next character that is not space. -/
def readMark (text : List Char) : Option (Char × List Char) :=
  match skipSpace text with
  | [] => none
  | c :: rest => some (c, rest)

theorem readMark_append {before rest : List Char} {c : Char} (hbefore : Space before)
    (hc : isSpace c = false) : readMark (before ++ c :: rest) = some (c, rest) := by
  rw [readMark, skipSpace_append hbefore, skipSpace_cons hc]

theorem exists_space_of_readMark {text rest : List Char} {c : Char}
    (h : readMark text = some (c, rest)) : ∃ before, Space before ∧ text = before ++ c :: rest := by
  obtain ⟨before, hbefore, htext⟩ := exists_space text
  rw [readMark] at h
  split at h
  · cases h
  · next hskip =>
      obtain ⟨rfl, rfl⟩ := Prod.mk.inj (Option.some.inj h)
      exact ⟨before, hbefore, by rw [← hskip, ← htext]⟩

/-! ### Numbers -/

/-- Digits, as many as there are. -/
def readDigits (text : List Char) : Option (List Char × List Char) :=
  if text.takeWhile Char.isDigit = [] then none
  else some (text.takeWhile Char.isDigit, text.dropWhile Char.isDigit)

def readWhole (text : List Char) : Option (List Char × List Char) := do
  let (digits, rest) ← readDigits text
  if digits.head? = some '0' ∧ digits ≠ ['0'] then none else some (digits, rest)

def readSign : List Char → Bool × List Char
  | [] => (false, [])
  | c :: rest => if c = '-' then (true, rest) else (false, c :: rest)

def readFraction : Reader (List Char)
  | [] => some ([], [])
  | c :: rest => if c = '.' then readDigits rest else some ([], c :: rest)

/-- Digits behind a sign that was read before. -/
def readInteger (negative : Bool) : Reader Int := fun text =>
  (readDigits text).map fun p => (signed negative (numeral p.1), p.2)

def readPower : Reader Int
  | [] => none
  | c :: rest =>
      if c = '-' then readInteger true rest
      else if c = '+' then readInteger false rest
      else readInteger false (c :: rest)

def readExponent : Reader Int
  | [] => some (0, [])
  | c :: rest => if c = 'e' ∨ c = 'E' then readPower rest else some (0, c :: rest)

/-- A number, as far as it goes on. -/
def readNumber : Reader Rat := fun text => do
  let (negative, rest) := readSign text
  let (whole, rest) ← readWhole rest
  let (decimals, rest) ← readFraction rest
  let (exponent, rest) ← readExponent rest
  return (amount negative (whole ++ decimals) decimals.length exponent, rest)

/-- The text does not begin with a digit. -/
def NoDigit (rest : List Char) : Prop :=
  ∀ c, rest.head? = some c → c.isDigit = false

theorem readDigits_eq_some_iff {text digits rest : List Char} :
    readDigits text = some (digits, rest) ↔
      text = digits ++ rest ∧ Digits digits ∧ NoDigit rest := by
  constructor
  · intro h
    rw [readDigits] at h
    split at h
    · cases h
    · next hne =>
        obtain ⟨rfl, rfl⟩ := Prod.mk.inj (Option.some.inj h)
        refine ⟨List.takeWhile_append_dropWhile.symm,
          ⟨hne, List.all_eq_true.1 List.all_takeWhile⟩, fun c hc => ?_⟩
        have hstop := List.head?_dropWhile_not Char.isDigit text
        rw [hc] at hstop
        simpa using hstop
  · intro h
    obtain ⟨rfl, ⟨hne, hall⟩, hstop⟩ := h
    have htake : rest.takeWhile Char.isDigit = [] := by
      cases rest with
      | nil => rfl
      | cons c rest => simp [hstop c rfl]
    have hdrop : rest.dropWhile Char.isDigit = rest := by
      cases rest with
      | nil => rfl
      | cons c rest => simp [hstop c rfl]
    rw [readDigits, List.takeWhile_append_of_pos hall, List.dropWhile_append_of_pos hall, htake,
      hdrop, List.append_nil, if_neg hne]

theorem readWhole_eq_some_iff {text whole rest : List Char} :
    readWhole text = some (whole, rest) ↔ text = whole ++ rest ∧ Whole whole ∧ NoDigit rest := by
  simp only [readWhole, Option.bind_eq_bind, Option.bind_eq_some_iff, Prod.exists,
    readDigits_eq_some_iff]
  constructor
  · intro h
    obtain ⟨digits, tail, ⟨rfl, hdigits, hstop⟩, h⟩ := h
    split at h
    · cases h
    · next hzero =>
        obtain ⟨rfl, rfl⟩ := Prod.mk.inj (Option.some.inj h)
        refine ⟨rfl, ⟨hdigits, fun hhead => ?_⟩, hstop⟩
        exact Classical.byContradiction fun hne => hzero ⟨hhead, hne⟩
  · intro h
    obtain ⟨rfl, ⟨hdigits, hleading⟩, hstop⟩ := h
    refine ⟨whole, rest, ⟨rfl, hdigits, hstop⟩, if_neg fun hzero => ?_⟩
    exact hzero.2 (hleading hzero.1)

theorem sound_readFraction : Reader.Sound readFraction DenotesFraction := by
  intro text decimals rest h
  cases text with
  | nil =>
      obtain ⟨rfl, rfl⟩ := Prod.mk.inj (Option.some.inj h)
      exact ⟨[], rfl, .absent⟩
  | cons c text =>
      rw [readFraction] at h
      split at h
      · next hc =>
          obtain ⟨rfl, hdigits, -⟩ := readDigits_eq_some_iff.1 h
          exact ⟨'.' :: decimals, by rw [hc, List.cons_append], .present hdigits⟩
      · obtain ⟨rfl, rfl⟩ := Prod.mk.inj (Option.some.inj h)
        exact ⟨[], rfl, .absent⟩

theorem readInteger_eq_some_iff {negative : Bool} {text rest : List Char} {value : Int} :
    readInteger negative text = some (value, rest) ↔
      ∃ digits, text = digits ++ rest ∧ Digits digits ∧ NoDigit rest ∧
        value = signed negative (numeral digits) := by
  simp only [readInteger, Option.map_eq_some_iff, Prod.exists, readDigits_eq_some_iff,
    Prod.mk.injEq]
  constructor
  · intro h
    obtain ⟨digits, tail, ⟨rfl, hdigits, hstop⟩, rfl, rfl⟩ := h
    exact ⟨digits, rfl, hdigits, hstop, rfl⟩
  · intro h
    obtain ⟨digits, rfl, hdigits, hstop, rfl⟩ := h
    exact ⟨digits, rest, ⟨rfl, hdigits, hstop⟩, rfl, rfl⟩

theorem sound_readPower : Reader.Sound readPower DenotesPower := by
  intro text power rest h
  cases text with
  | nil => cases h
  | cons c text =>
      rw [readPower] at h
      split at h
      · next hc =>
          obtain ⟨digits, rfl, hdigits, -, rfl⟩ := readInteger_eq_some_iff.1 h
          exact ⟨'-' :: digits, by rw [hc, List.cons_append], .minus hdigits⟩
      · split at h
        · next hc =>
            obtain ⟨digits, rfl, hdigits, -, rfl⟩ := readInteger_eq_some_iff.1 h
            exact ⟨'+' :: digits, by rw [hc, List.cons_append], .plus hdigits⟩
        · obtain ⟨digits, htext, hdigits, -, rfl⟩ := readInteger_eq_some_iff.1 h
          exact ⟨digits, htext, .plain hdigits⟩

theorem sound_readExponent : Reader.Sound readExponent DenotesExponent := by
  intro text exponent rest h
  cases text with
  | nil =>
      obtain ⟨rfl, rfl⟩ := Prod.mk.inj (Option.some.inj h)
      exact ⟨[], rfl, .absent⟩
  | cons c text =>
      rw [readExponent] at h
      split at h
      · next hc =>
          obtain ⟨power, rfl, hpower⟩ := sound_readPower _ _ _ h
          rcases hc with rfl | rfl
          · exact ⟨'e' :: power, rfl, .lower hpower⟩
          · exact ⟨'E' :: power, rfl, .upper hpower⟩
      · obtain ⟨rfl, rfl⟩ := Prod.mk.inj (Option.some.inj h)
        exact ⟨[], rfl, .absent⟩

theorem exists_sign (text : List Char) :
    ∃ sign, DenotesSign sign (readSign text).1 ∧ text = sign ++ (readSign text).2 := by
  cases text with
  | nil => exact ⟨[], .plus, rfl⟩
  | cons c text =>
      by_cases hc : c = '-'
      · subst hc
        exact ⟨['-'], .minus, rfl⟩
      · refine ⟨[], ?_, ?_⟩
        · rw [readSign, if_neg hc]
          exact .plus
        · rw [readSign, if_neg hc]
          rfl

theorem sound_readNumber : Reader.Sound readNumber DenotesNumber := by
  intro text value rest h
  obtain ⟨sign, hsign, htext⟩ := exists_sign text
  simp only [readNumber, Option.bind_eq_bind, Option.bind_eq_some_iff, Prod.exists,
    Option.pure_def, Option.some.injEq, Prod.mk.injEq] at h
  obtain ⟨whole, _, hw, decimals, _, hf, exponent, _, he, rfl, rfl⟩ := h
  obtain ⟨hrest, hwhole, -⟩ := readWhole_eq_some_iff.1 hw
  obtain ⟨fraction, rfl, hfraction⟩ := sound_readFraction _ _ _ hf
  obtain ⟨power, rfl, hexponent⟩ := sound_readExponent _ _ _ he
  refine ⟨_, ?_, .mk hsign hwhole hfraction hexponent⟩
  rw [htext, hrest]
  simp only [List.append_assoc]

/-- A number cannot go on with this text. -/
def Ends (rest : List Char) : Prop :=
  ∀ c, rest.head? = some c → c.isDigit = false ∧ c ≠ '.' ∧ c ≠ 'e' ∧ c ≠ 'E'

theorem Ends.noDigit {rest : List Char} (h : Ends rest) : NoDigit rest :=
  fun c hc => (h c hc).1

theorem Digits.readInteger_append {digits rest : List Char} (h : Digits digits)
    (hrest : NoDigit rest) (negative : Bool) :
    readInteger negative (digits ++ rest) =
      some (signed negative (numeral digits), rest) :=
  readInteger_eq_some_iff.2 ⟨digits, rfl, h, hrest, rfl⟩

theorem DenotesPower.readPower_append {power rest : List Char} {exponent : Int}
    (h : DenotesPower power exponent) (hrest : NoDigit rest) :
    readPower (power ++ rest) = some (exponent, rest) := by
  cases h with
  | plain hdigits =>
      obtain ⟨c, tail, rfl, hc⟩ := hdigits.exists_cons
      have hminus : c ≠ '-' := ne_of_isDigit hc rfl
      have hplus : c ≠ '+' := ne_of_isDigit hc rfl
      rw [List.cons_append, readPower, if_neg hminus, if_neg hplus, ← List.cons_append,
        hdigits.readInteger_append hrest]
  | plus hdigits => exact hdigits.readInteger_append hrest false
  | minus hdigits => exact hdigits.readInteger_append hrest true

theorem DenotesExponent.readExponent_append {power rest : List Char} {exponent : Int}
    (h : DenotesExponent power exponent) (hrest : Ends rest) :
    readExponent (power ++ rest) = some (exponent, rest) := by
  cases h with
  | absent =>
      cases rest with
      | nil => rfl
      | cons c rest =>
          obtain ⟨-, -, he, hE⟩ := hrest c rfl
          rw [List.nil_append, readExponent, if_neg (not_or.2 ⟨he, hE⟩)]
  | lower hpower => exact hpower.readPower_append hrest.noDigit
  | upper hpower => exact hpower.readPower_append hrest.noDigit

/-- Behind the digits of a number comes no digit, and no point but that of the fraction. -/
theorem DenotesExponent.stops {power rest : List Char} {exponent : Int}
    (h : DenotesExponent power exponent) (hrest : Ends rest) :
    ∀ c, (power ++ rest).head? = some c → c.isDigit = false ∧ c ≠ '.' := by
  intro c hc
  cases h with
  | absent => exact ⟨(hrest c hc).1, (hrest c hc).2.1⟩
  | lower _ =>
      obtain rfl := Option.some.inj hc
      decide
  | upper _ =>
      obtain rfl := Option.some.inj hc
      decide

theorem DenotesFraction.readFraction_append {fraction decimals rest : List Char}
    (h : DenotesFraction fraction decimals)
    (hrest : ∀ c, rest.head? = some c → c.isDigit = false ∧ c ≠ '.') :
    readFraction (fraction ++ rest) = some (decimals, rest) := by
  cases h with
  | absent =>
      cases rest with
      | nil => rfl
      | cons c rest => rw [List.nil_append, readFraction, if_neg (hrest c rfl).2]
  | present hdigits =>
      exact readDigits_eq_some_iff.2 ⟨rfl, hdigits, fun c hc => (hrest c hc).1⟩

theorem DenotesFraction.noDigit {fraction decimals rest : List Char}
    (h : DenotesFraction fraction decimals) (hrest : NoDigit rest) :
    NoDigit (fraction ++ rest) := by
  cases h with
  | absent => exact hrest
  | present _ =>
      intro c hc
      obtain rfl := Option.some.inj hc
      decide

theorem readSign_append {sign whole rest : List Char} {negative : Bool}
    (h : DenotesSign sign negative) (hwhole : Whole whole) :
    readSign (sign ++ (whole ++ rest)) = (negative, whole ++ rest) := by
  cases h with
  | plus =>
      obtain ⟨c, tail, rfl, hc⟩ := hwhole.digits.exists_cons
      have hminus : c ≠ '-' := ne_of_isDigit hc rfl
      rw [List.nil_append, List.cons_append, readSign, if_neg hminus]
  | minus => rfl

/-- A number is taken off whole, if it cannot go on. -/
theorem DenotesNumber.readNumber_append {text rest : List Char} {value : Rat}
    (h : DenotesNumber text value) (hrest : Ends rest) :
    readNumber (text ++ rest) = some (value, rest) := by
  cases h with
  | @mk sign whole fraction decimals power negative exponent hsign hwhole hfraction hexponent =>
      have hstops := hexponent.stops hrest
      have hnodigit := hfraction.noDigit fun c hc => (hstops c hc).1
      have hsplit : sign ++ (whole ++ (fraction ++ power)) ++ rest =
          sign ++ (whole ++ (fraction ++ (power ++ rest))) := by
        simp only [List.append_assoc]
      rw [hsplit, readNumber, readSign_append hsign hwhole]
      simp only [readWhole_eq_some_iff.2 ⟨rfl, hwhole, hnodigit⟩,
        hfraction.readFraction_append hstops, hexponent.readExponent_append hrest,
        Option.bind_eq_bind, Option.bind_some, Option.pure_def]

/-! ### Strings -/

/-- Four hexadecimal digits. -/
def readUnit : Reader Nat := fun text =>
  if text.length < 4 then none
  else (hexNumber? 0 (text.take 4)).map fun unit => (unit, text.drop 4)

/-- The second half of a surrogate pair. -/
def readLow (high : Nat) : Reader Char := fun text => do
  let rest ← Text.after? ['\\', 'u'] text
  let (low, rest) ← readUnit rest
  if isLowSurrogate low then some (combine high low, rest) else none

/-- A character that is written by its units. -/
def readUnits : Reader Char := fun text => do
  let (unit, rest) ← readUnit text
  if isHighSurrogate unit then readLow unit rest
  else if isLowSurrogate unit then none
  else some (Char.ofNat unit, rest)

/-- A character that is written behind a backslash. -/
def readEscape : Reader Char
  | [] => none
  | letter :: rest =>
      if letter = 'u' then readUnits rest else (escapes.lookup letter).map fun c => (c, rest)

/-- One character of a string. -/
def readChar : Reader Char
  | [] => none
  | c :: rest =>
      if c = '\\' then readEscape rest
      else if 0x20 ≤ c.toNat ∧ c ≠ '"' then some (c, rest)
      else none

/-- The characters up to the closing quote, at most `bound` with the quote. -/
def readText : (bound : Nat) → Reader (List Char)
  | 0, _ => none
  | _ + 1, [] => none
  | bound + 1, c :: rest =>
      if c = '"' then some ([], rest)
      else do
        let (d, rest) ← readChar (c :: rest)
        let (text, rest) ← readText bound rest
        return (d :: text, rest)

/-- A string behind its opening quote. -/
def readString : Reader String := fun text =>
  (readText text.length text).map fun p => (String.ofList p.1, p.2)

theorem readUnit_eq_some_iff {text rest : List Char} {unit : Nat} :
    readUnit text = some (unit, rest) ↔
      ∃ digits, text = digits ++ rest ∧ DenotesUnit digits unit := by
  constructor
  · intro h
    rw [readUnit] at h
    split at h
    · cases h
    · next hlength =>
        obtain ⟨value, hvalue, heq⟩ := Option.map_eq_some_iff.1 h
        obtain ⟨rfl, rfl⟩ := Prod.mk.inj heq
        refine ⟨text.take 4, (List.take_append_drop 4 text).symm, ?_, hvalue⟩
        rw [List.length_take]
        omega
  · intro h
    obtain ⟨digits, rfl, hlength, hvalue⟩ := h
    have hlong : ¬(digits ++ rest).length < 4 := by
      rw [List.length_append]
      omega
    rw [readUnit, if_neg hlong, List.take_left' hlength, List.drop_left' hlength, hvalue]
    rfl

theorem lookup_escapes_eq_some_iff {letter c : Char} :
    escapes.lookup letter = some c ↔ (letter, c) ∈ escapes := by
  constructor
  · intro h
    obtain ⟨before, after, heq, -⟩ := List.lookup_eq_some_iff.1 h
    rw [heq]
    simp
  · intro h
    simp only [escapes, List.mem_cons, Prod.mk.injEq, List.not_mem_nil, or_false] at h
    rcases h with ⟨rfl, rfl⟩ | ⟨rfl, rfl⟩ | ⟨rfl, rfl⟩ | ⟨rfl, rfl⟩ | ⟨rfl, rfl⟩ | ⟨rfl, rfl⟩ |
      ⟨rfl, rfl⟩ | ⟨rfl, rfl⟩ <;> rfl

theorem readLow_eq_some_iff {high : Nat} {text rest : List Char} {c : Char} :
    readLow high text = some (c, rest) ↔
      ∃ digits low, text = '\\' :: 'u' :: (digits ++ rest) ∧ DenotesUnit digits low ∧
        isLowSurrogate low = true ∧ c = combine high low := by
  simp only [readLow, Option.bind_eq_bind, Option.bind_eq_some_iff, Prod.exists,
    Text.after?_eq_some_iff, readUnit_eq_some_iff]
  constructor
  · intro h
    obtain ⟨_, rfl, low, _, ⟨digits, rfl, hunit⟩, h⟩ := h
    split at h
    · next hlow =>
        obtain ⟨rfl, rfl⟩ := Prod.mk.inj (Option.some.inj h)
        exact ⟨digits, low, rfl, hunit, hlow, rfl⟩
    · cases h
  · intro h
    obtain ⟨digits, low, rfl, hunit, hlow, hc⟩ := h
    refine ⟨_, rfl, low, rest, ⟨digits, rfl, hunit⟩, ?_⟩
    rw [if_pos hlow, hc]

theorem sound_readUnits {text rest : List Char} {c : Char}
    (h : readUnits text = some (c, rest)) :
    ∃ part, text = part ++ rest ∧ DenotesChar ('\\' :: 'u' :: part) c := by
  simp only [readUnits, Option.bind_eq_bind, Option.bind_eq_some_iff, Prod.exists,
    readUnit_eq_some_iff] at h
  obtain ⟨unit, _, ⟨digits, rfl, hunit⟩, h⟩ := h
  split at h
  · next hhigh =>
      obtain ⟨digits', low, rfl, hlow, hislow, hc⟩ := readLow_eq_some_iff.1 h
      rw [hc]
      exact ⟨digits ++ '\\' :: 'u' :: digits', by simp, .pair hunit hhigh hlow hislow⟩
  · next hhigh =>
      split at h
      · cases h
      · next hlow =>
          obtain ⟨rfl, rfl⟩ := Prod.mk.inj (Option.some.inj h)
          exact ⟨digits, rfl, .unit hunit (by simpa using hhigh) (by simpa using hlow)⟩

theorem sound_readChar : Reader.Sound readChar DenotesChar := by
  intro text c rest h
  cases text with
  | nil => cases h
  | cons d text =>
      rw [readChar] at h
      split at h
      · next hd =>
          subst hd
          cases text with
          | nil => cases h
          | cons letter text =>
              rw [readEscape] at h
              split at h
              · next hletter =>
                  subst hletter
                  obtain ⟨part, rfl, hpart⟩ := sound_readUnits h
                  exact ⟨_, rfl, hpart⟩
              · obtain ⟨value, hlookup, heq⟩ := Option.map_eq_some_iff.1 h
                obtain ⟨rfl, rfl⟩ := Prod.mk.inj heq
                exact ⟨['\\', letter], rfl, .letter (lookup_escapes_eq_some_iff.1 hlookup)⟩
      · next hd =>
          split at h
          · next hplain =>
              obtain ⟨rfl, rfl⟩ := Prod.mk.inj (Option.some.inj h)
              exact ⟨[d], rfl, .plain hplain.1 hplain.2 hd⟩
          · cases h

theorem sound_readText (bound : Nat) {text rest value : List Char}
    (h : readText bound text = some (value, rest)) :
    ∃ written, text = written ++ '"' :: rest ∧ DenotesText written value := by
  induction bound generalizing text value with
  | zero => cases h
  | succ bound ih =>
      cases text with
      | nil => cases h
      | cons c text =>
          rw [readText] at h
          split at h
          · next hc =>
              obtain ⟨rfl, rfl⟩ := Prod.mk.inj (Option.some.inj h)
              exact ⟨[], by rw [hc, List.nil_append], .nil⟩
          · simp only [Option.bind_eq_bind, Option.bind_eq_some_iff, Prod.exists, Option.pure_def,
              Option.some.injEq, Prod.mk.injEq] at h
            obtain ⟨d, _, hchar, tail, _, htext, rfl, rfl⟩ := h
            obtain ⟨first, hfirst, hd⟩ := sound_readChar _ _ _ hchar
            obtain ⟨written, rfl, hwritten⟩ := ih htext
            exact ⟨first ++ written, by rw [hfirst, List.append_assoc], .cons hd hwritten⟩

/-- The text of a string is taken off with its closing quote. -/
theorem sound_readString {text rest : List Char} {value : String}
    (h : readString text = some (value, rest)) :
    ∃ written chars, text = written ++ '"' :: rest ∧ DenotesText written chars ∧
      value = String.ofList chars := by
  obtain ⟨chars, hread, rfl⟩ := map_fst_eq_some_iff.1 h
  obtain ⟨written, htext, hwritten⟩ := sound_readText _ hread
  exact ⟨written, chars, htext, hwritten, rfl⟩

theorem DenotesChar.readChar_append {text rest : List Char} {c : Char} (h : DenotesChar text c) :
    readChar (text ++ rest) = some (c, rest) := by
  cases h with
  | plain hprintable hquote hbackslash =>
      rw [List.singleton_append, readChar, if_neg hbackslash, if_pos ⟨hprintable, hquote⟩]
  | @letter letter c hletter =>
      have hu : letter ≠ 'u' := by
        rintro rfl
        simp [escapes] at hletter
      change readEscape (letter :: rest) = _
      rw [readEscape, if_neg hu, lookup_escapes_eq_some_iff.2 hletter]
      rfl
  | unit hunit hhigh hlow =>
      change readUnits (_ ++ rest) = _
      rw [readUnits, readUnit_eq_some_iff.2 ⟨_, rfl, hunit⟩]
      simp [hhigh, hlow]
  | @pair digits digits' high low hhigh hishigh hlow hislow =>
      have hsplit : '\\' :: 'u' :: (digits ++ '\\' :: 'u' :: digits') ++ rest =
          '\\' :: 'u' :: (digits ++ '\\' :: 'u' :: (digits' ++ rest)) := by
        simp
      rw [hsplit]
      change readUnits (digits ++ '\\' :: 'u' :: (digits' ++ rest)) = _
      rw [readUnits, readUnit_eq_some_iff.2 ⟨_, rfl, hhigh⟩]
      simp only [Option.bind_eq_bind, Option.bind_some, hishigh, if_true]
      exact readLow_eq_some_iff.2 ⟨digits', low, rfl, hlow, hislow, rfl⟩

/-- A written character begins with something other than a quote. -/
theorem DenotesChar.exists_cons {text : List Char} {c : Char} (h : DenotesChar text c) :
    ∃ d rest, text = d :: rest ∧ d ≠ '"' := by
  cases h with
  | plain _ hquote _ => exact ⟨c, [], rfl, hquote⟩
  | letter _ => exact ⟨'\\', _, rfl, by decide⟩
  | unit _ _ _ => exact ⟨'\\', _, rfl, by decide⟩
  | pair _ _ _ _ => exact ⟨'\\', _, rfl, by decide⟩

theorem DenotesText.readText_append {written text rest : List Char} (h : DenotesText written text)
    {bound : Nat} (hbound : written.length < bound) :
    readText bound (written ++ '"' :: rest) = some (text, rest) := by
  induction h generalizing bound with
  | nil =>
      cases bound with
      | zero => omega
      | succ bound => rfl
  | @cons first tail c text hchar htail ih =>
      -- a written character does not begin with a quote, so the string goes on
      obtain ⟨d, more, rfl, hd⟩ := hchar.exists_cons
      cases bound with
      | zero => omega
      | succ bound =>
          have htailbound : tail.length < bound := by
            simp only [List.cons_append, List.length_cons, List.length_append] at hbound
            omega
          have hread : readChar (d :: more ++ (tail ++ '"' :: rest)) =
              some (c, tail ++ '"' :: rest) := hchar.readChar_append
          rw [List.append_assoc, List.cons_append, readText, if_neg hd, ← List.cons_append, hread]
          simp [ih htailbound]

theorem DenotesText.readString_append {written text rest : List Char}
    (h : DenotesText written text) :
    readString (written ++ '"' :: rest) = some (String.ofList text, rest) := by
  have hbound : written.length < (written ++ '"' :: rest).length := by
    simp
  rw [readString, h.readText_append hbound]
  rfl

end Edl.Json
