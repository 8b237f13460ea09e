/-
What is read as UTF-8, and where reading stops.

Octets that are read as a character are the octets of that character: overlong forms, surrogates and
numbers beyond the last character are refused by what may follow the first octet.  So at every place
either the octets of a character stand there, and reading goes on behind them, or reading stops.
Octets are therefore read as a text exactly if they are its encoding, and where reading stops is the
end of the longest part, from the start on, that is the encoding of some text.

Main definitions:

* `Edl.Text.Utf8.Valid` — octets that are the encoding of some text;
* `Edl.Text.Utf8.ValidUpTo` — how long the longest such part is, from the start on;
* `Edl.Text.Utf8.Names` — how a place in the octets is written in a message.

Main results:

* `Edl.Text.Utf8.utf8EncodeChar_of_width_two` and its kin — what is read is what was written;
* `Edl.Text.Utf8.starts_or_stops` — what can happen at one place;
* `Edl.Text.Utf8.decodeFrom_cases` — what can happen from there on;
* `Edl.Text.Utf8.decode_eq_ok_iff` — **octets are read as the text whose encoding they are**;
* `Edl.Text.Utf8.validUpTo_of_decode` — **reading stops behind the longest valid part**.
-/

import Edl.Proofs.Encoding

set_option relaxedAutoImplicit false
set_option autoImplicit false

namespace Edl.Text.Utf8

/-! ### Characters and their octets -/

theorem width_of_none {a : UInt8} (h : (0x80 ≤ a.toNat ∧ a.toNat < 0xC2) ∨ 0xF5 ≤ a.toNat) :
    width a = 0 := by
  have h₁ : ¬a.toNat < 0x80 := by omega
  simp only [width, UInt8.lt_iff_toNat_lt, UInt8.reduceToNat, h₁, if_false]
  repeat' split
  all_goals omega

/-- The code point of a character that is given by its code point. -/
theorem code_ofNat {n : Nat} (h : n.isValidChar) : (Char.ofNat n).val.toNat = n := by
  have hchar : Char.ofNat n = Char.ofNatAux n h := dif_pos h
  rw [hchar]
  rfl

theorem ofNat_eq_octet {n : Nat} {a : UInt8} (h : n = a.toNat) : UInt8.ofNat n = a := by
  rw [h, UInt8.ofNat_toNat]

section

variable {a b c d : UInt8}

theorem utf8EncodeChar_of_width_one (ha : a.toNat < 0x80) :
    String.utf8EncodeChar (Char.ofNat a.toNat) = [a] := by
  have hcode := code_ofNat (n := a.toNat) (.inl (by omega))
  simp only [String.utf8EncodeChar, hcode]
  rw [if_pos (by omega), UInt8.ofNat_toNat]

theorem utf8EncodeChar_of_width_two (ha : 0xC2 ≤ a.toNat ∧ a.toNat < 0xE0)
    (hb : continues b = true) :
    String.utf8EncodeChar (Char.ofNat (a.toNat % 32 * 64 + payload b)) = [a, b] := by
  rw [continues_iff] at hb
  have hcode := code_ofNat (n := a.toNat % 32 * 64 + payload b) (.inl (by rw [payload]; omega))
  simp only [String.utf8EncodeChar, hcode]
  rw [payload, if_neg (by omega), if_pos (by omega), ofNat_eq_octet (a := a) (by omega),
    ofNat_eq_octet (a := b) (by omega)]

theorem utf8EncodeChar_of_width_three (ha : 0xE0 ≤ a.toNat ∧ a.toNat < 0xF0)
    (hb : continuesFirst a b = true) (hc : continues c = true) :
    String.utf8EncodeChar (Char.ofNat ((a.toNat % 16 * 64 + payload b) * 64 + payload c)) =
      [a, b, c] := by
  rw [continuesFirst_iff] at hb
  rw [continues_iff] at hc
  have hcode := code_ofNat (n := (a.toNat % 16 * 64 + payload b) * 64 + payload c)
    (by rw [payload, payload, Nat.isValidChar]; omega)
  simp only [String.utf8EncodeChar, hcode]
  rw [payload, payload, if_neg (by omega), if_neg (by omega), if_pos (by omega),
    ofNat_eq_octet (a := a) (by omega), ofNat_eq_octet (a := b) (by omega),
    ofNat_eq_octet (a := c) (by omega)]

theorem utf8EncodeChar_of_width_four (ha : 0xF0 ≤ a.toNat ∧ a.toNat < 0xF5)
    (hb : continuesFirst a b = true) (hc : continues c = true) (hd : continues d = true) :
    String.utf8EncodeChar
        (Char.ofNat (((a.toNat % 8 * 64 + payload b) * 64 + payload c) * 64 + payload d)) =
      [a, b, c, d] := by
  rw [continuesFirst_iff] at hb
  rw [continues_iff] at hc hd
  have hcode := code_ofNat
    (n := ((a.toNat % 8 * 64 + payload b) * 64 + payload c) * 64 + payload d)
    (by rw [payload, payload, payload, Nat.isValidChar]; omega)
  simp only [String.utf8EncodeChar, hcode]
  rw [payload, payload, payload, if_neg (by omega), if_neg (by omega), if_neg (by omega),
    ofNat_eq_octet (a := a) (by omega), ofNat_eq_octet (a := b) (by omega),
    ofNat_eq_octet (a := c) (by omega), ofNat_eq_octet (a := d) (by omega)]

end

/-! ### One place -/

/-- Reading stops at once, on some of the octets that come next. -/
def Stops (position : Nat) (octets : List UInt8) : Prop :=
  ∃ fault, decodeFrom position octets = .error fault ∧ fault.position = position ∧
    fault.octets ≠ [] ∧ fault.octets <+: octets

section

variable {position : Nat} {a b : UInt8} {rest : List UInt8}

theorem stops_of_eq_error {octets : List UInt8} (taken : List UInt8) (reason : Reason)
    (h : decodeFrom position octets = .error ⟨position, taken, reason⟩) (hne : taken ≠ [])
    (htaken : taken <+: octets) : Stops position octets :=
  ⟨_, h, rfl, hne, htaken⟩

/-- Where no character starts, reading stops. -/
theorem stops_of_width_zero (ha : width a = 0) : Stops position (a :: rest) := by
  refine stops_of_eq_error [a] .start ?_ (by simp) (List.prefix_append [a] _)
  rw [decodeFrom.eq_def]
  simp [ha]

/-- Where the data end behind the first octet of a character, reading stops. -/
theorem stops_of_nil (ha : 2 ≤ width a ∧ width a ≤ 4) : Stops position [a] := by
  refine stops_of_eq_error [a] .ending ?_ (by simp) List.prefix_rfl
  obtain hwidth | hwidth | hwidth : width a = 2 ∨ width a = 3 ∨ width a = 4 := by omega
  all_goals
    rw [decodeFrom.eq_def]
    simp [hwidth]

/-- Where the second octet cannot follow the first, reading stops. -/
theorem stops_of_second
    (hb : width a = 2 ∧ continues b = false ∨
      (width a = 3 ∨ width a = 4) ∧ continuesFirst a b = false) :
    Stops position (a :: b :: rest) := by
  refine stops_of_eq_error [a] .continuation ?_ (by simp) (List.prefix_append [a] _)
  obtain ⟨hwidth, hb⟩ | ⟨hwidth | hwidth, hb⟩ := hb
  all_goals
    rw [decodeFrom.eq_def]
    simp [hwidth, hb]

/-- Where the third octet is missing or cannot follow, reading stops. -/
theorem stops_of_third (ha : width a = 3 ∨ width a = 4) (hb : continuesFirst a b = true)
    (hrest : ∀ c tail, rest = c :: tail → continues c = false) :
    Stops position (a :: b :: rest) := by
  cases rest with
  | nil =>
      refine stops_of_eq_error [a, b] .ending ?_ (by simp) List.prefix_rfl
      obtain hwidth | hwidth := ha
      all_goals
        rw [decodeFrom.eq_def]
        simp [hwidth, hb]
  | cons c tail =>
      have hc := hrest c tail rfl
      refine stops_of_eq_error [a, b] .continuation ?_ (by simp) (List.prefix_append [a, b] _)
      obtain hwidth | hwidth := ha
      all_goals
        rw [decodeFrom.eq_def]
        simp [hwidth, hb, hc]

/-- Where the fourth octet is missing or cannot follow, reading stops. -/
theorem stops_of_fourth {c : UInt8} (ha : width a = 4) (hb : continuesFirst a b = true)
    (hc : continues c = true) (hrest : ∀ d tail, rest = d :: tail → continues d = false) :
    Stops position (a :: b :: c :: rest) := by
  cases rest with
  | nil =>
      refine stops_of_eq_error [a, b, c] .ending ?_ (by simp) List.prefix_rfl
      rw [decodeFrom.eq_def]
      simp [ha, hb, hc]
  | cons d tail =>
      have hd := hrest d tail rfl
      refine stops_of_eq_error [a, b, c] .continuation ?_ (by simp) (List.prefix_append [a, b, c] _)
      rw [decodeFrom.eq_def]
      simp [ha, hb, hc, hd]

/-- The octets of a character stand here. -/
def Starts (octets : List UInt8) : Prop :=
  ∃ c tail, octets = String.utf8EncodeChar c ++ tail

theorem starts_of_eq {c : Char} {octets tail : List UInt8} (h : String.utf8EncodeChar c = octets) :
    Starts (octets ++ tail) :=
  ⟨c, tail, by rw [h]⟩

/-- An octet that continues a character at the head of a list, or none. -/
theorem exists_continues_or (rest : List UInt8) :
    (∃ c tail, rest = c :: tail ∧ continues c = true) ∨
      ∀ c tail, rest = c :: tail → continues c = false := by
  cases rest with
  | nil => exact .inr fun c tail h => by simp at h
  | cons c tail =>
      cases hc : continues c with
      | false =>
          right
          intro d tail' h
          obtain ⟨rfl, -⟩ := List.cons.inj h
          exact hc
      | true => exact .inl ⟨c, tail, rfl, hc⟩

theorem starts_or_stops_of_two (ha : 0xC2 ≤ a.toNat ∧ a.toNat < 0xE0) :
    Starts (a :: rest) ∨ Stops position (a :: rest) := by
  have hwidth : width a = 2 := width_of_two ha.1 ha.2
  cases rest with
  | nil => exact .inr (stops_of_nil (by omega))
  | cons b rest =>
      cases hb : continues b with
      | false => exact .inr (stops_of_second (.inl ⟨hwidth, hb⟩))
      | true => exact .inl (starts_of_eq (utf8EncodeChar_of_width_two ha hb))

theorem starts_or_stops_of_three (ha : 0xE0 ≤ a.toNat ∧ a.toNat < 0xF0) :
    Starts (a :: rest) ∨ Stops position (a :: rest) := by
  have hwidth : width a = 3 := width_of_three ha.1 ha.2
  cases rest with
  | nil => exact .inr (stops_of_nil (by omega))
  | cons b rest =>
      cases hb : continuesFirst a b with
      | false => exact .inr (stops_of_second (.inr ⟨.inl hwidth, hb⟩))
      | true =>
          rcases exists_continues_or rest with ⟨c, tail, rfl, hc⟩ | hrest
          · exact .inl (starts_of_eq (utf8EncodeChar_of_width_three ha hb hc))
          · exact .inr (stops_of_third (.inl hwidth) hb hrest)

theorem starts_or_stops_of_four (ha : 0xF0 ≤ a.toNat ∧ a.toNat < 0xF5) :
    Starts (a :: rest) ∨ Stops position (a :: rest) := by
  have hwidth : width a = 4 := width_of_four ha.1 ha.2
  cases rest with
  | nil => exact .inr (stops_of_nil (by omega))
  | cons b rest =>
      cases hb : continuesFirst a b with
      | false => exact .inr (stops_of_second (.inr ⟨.inr hwidth, hb⟩))
      | true =>
          rcases exists_continues_or rest with ⟨c, tail, rfl, hc⟩ | hrest
          · rcases exists_continues_or tail with ⟨d, tail, rfl, hd⟩ | htail
            · exact .inl (starts_of_eq (utf8EncodeChar_of_width_four ha hb hc hd))
            · exact .inr (stops_of_fourth hwidth hb hc htail)
          · exact .inr (stops_of_third (.inr hwidth) hb hrest)

/-- At every place the octets of a character stand there, or reading stops. -/
theorem starts_or_stops (position : Nat) (a : UInt8) (rest : List UInt8) :
    Starts (a :: rest) ∨ Stops position (a :: rest) := by
  -- the first octet decides how many there are
  obtain h | h | h | h | h : a.toNat < 0x80 ∨ (0xC2 ≤ a.toNat ∧ a.toNat < 0xE0) ∨
      (0xE0 ≤ a.toNat ∧ a.toNat < 0xF0) ∨ (0xF0 ≤ a.toNat ∧ a.toNat < 0xF5) ∨
      ((0x80 ≤ a.toNat ∧ a.toNat < 0xC2) ∨ 0xF5 ≤ a.toNat) := by omega
  · exact .inl (starts_of_eq (utf8EncodeChar_of_width_one h))
  · exact starts_or_stops_of_two h
  · exact starts_or_stops_of_three h
  · exact starts_or_stops_of_four h
  · exact .inr (stops_of_width_zero (width_of_none h))

end

/-! ### From there on -/

/-- Some characters are read; then the data end, or reading stops. -/
theorem decodeFrom_cases (position : Nat) (octets : List UInt8) :
    ∃ text rest, octets = encode text ++ rest ∧
      (rest = [] ∨ Stops (position + (encode text).length) rest) := by
  -- each character takes octets away
  induction hlength : octets.length using Nat.strongRecOn generalizing position octets with
  | ind n ih =>
      cases octets with
      | nil => exact ⟨[], [], rfl, .inl rfl⟩
      | cons a octets =>
          rcases starts_or_stops position a octets with ⟨c, tail, htail⟩ | hstops
          · have hshort : tail.length < n := by
              have hpos := String.length_utf8EncodeChar c
              have hsize := Char.utf8Size_pos c
              rw [← hlength, htail, List.length_append]
              omega
            obtain ⟨text, rest, rfl, hrest⟩ :=
              ih tail.length hshort (position + (String.utf8EncodeChar c).length) tail rfl
            have hencode : encode (c :: text) = String.utf8EncodeChar c ++ encode text :=
              List.flatMap_cons
            refine ⟨c :: text, rest, ?_, ?_⟩
            · rw [htail, hencode, List.append_assoc]
            · rwa [hencode, List.length_append, ← Nat.add_assoc]
          · exact ⟨[], a :: octets, rfl, .inr hstops⟩

/-- A reading that stops has read some characters first. -/
theorem exists_of_decodeFrom_eq_error {position : Nat} {octets : List UInt8} {fault : Fault}
    (h : decodeFrom position octets = .error fault) :
    ∃ text rest, octets = encode text ++ rest ∧
      fault.position = position + (encode text).length ∧
      fault.octets ≠ [] ∧ fault.octets <+: rest := by
  obtain ⟨text, rest, rfl, hrest⟩ := decodeFrom_cases position octets
  rw [decodeFrom_encode_append] at h
  rcases hrest with rfl | ⟨fault', hfault, hposition, hne, htaken⟩
  · cases h
  · rw [hfault] at h
    obtain rfl := Except.error.inj h
    exact ⟨text, rest, rfl, hposition, hne, htaken⟩

/-! ### Valid octets -/

/-- The octets are the encoding of a text. -/
def Valid (octets : List UInt8) : Prop :=
  ∃ text, encode text = octets

/-- The longest part of the octets, from their start on, that is the encoding of a text is as long
as given. -/
structure ValidUpTo (octets : List UInt8) (length : Nat) : Prop where
  valid : Valid (octets.take length)
  le : length ≤ octets.length
  longest : ∀ front, front <+: octets → Valid front → front.length ≤ length

section

variable {octets : List UInt8} {text : List Char} {fault : Fault}

/-- **Octets are read as the text whose encoding they are.** -/
theorem decode_eq_ok_iff : decode octets = .ok text ↔ encode text = octets := by
  constructor
  · intro h
    obtain ⟨front, rest, rfl, hrest⟩ := decodeFrom_cases 0 octets
    rw [decode, decodeFrom_encode_append] at h
    rcases hrest with rfl | ⟨fault, hfault, -⟩
    · obtain rfl : front ++ [] = text := Except.ok.inj h
      rw [List.append_nil, List.append_nil]
    · rw [hfault] at h
      cases h
  · rintro rfl
    exact decode_encode text

/-- Different texts have different octets. -/
theorem encode_injective {s t : List Char} (h : encode s = encode t) : s = t := by
  have hread := decode_encode s
  rw [h, decode_encode] at hread
  exact (Except.ok.inj hread).symm

theorem valid_iff_exists_decode : Valid octets ↔ ∃ text, decode octets = .ok text := by
  simp only [decode_eq_ok_iff, Valid]

/-- **Reading stops behind the longest valid part.** -/
theorem validUpTo_of_decode (h : decode octets = .error fault) :
    ValidUpTo octets fault.position := by
  obtain ⟨text, rest, hoctets, hposition, -⟩ := exists_of_decodeFrom_eq_error h
  rw [Nat.zero_add] at hposition
  refine ⟨⟨text, ?_⟩, ?_, ?_⟩
  · rw [hoctets, hposition, List.take_left]
  · rw [hoctets, hposition, List.length_append]
    exact Nat.le_add_right _ _
  · rintro front ⟨tail, rfl⟩ ⟨part, rfl⟩
    -- a valid part is read to its end, so that reading cannot have stopped inside it
    rw [decode, decodeFrom_encode_append, Nat.zero_add] at h
    cases htail : decodeFrom (encode part).length tail with
    | ok read =>
        rw [htail] at h
        cases h
    | error fault' =>
        rw [htail] at h
        obtain rfl := Except.error.inj h
        obtain ⟨_, _, -, hlater, -⟩ := exists_of_decodeFrom_eq_error htail
        omega

/-- The longest valid part has one length. -/
theorem ValidUpTo.unique {n m : Nat} (h : ValidUpTo octets n) (h' : ValidUpTo octets m) :
    n = m := by
  have hle := h'.longest _ (List.take_prefix n octets) h.valid
  have hge := h.longest _ (List.take_prefix m octets) h'.valid
  rw [List.length_take_of_le h.le] at hle
  rw [List.length_take_of_le h'.le] at hge
  exact Nat.le_antisymm hle hge

/-- Reading stops on octets that stand there. -/
theorem taken_of_decode (h : decode octets = .error fault) :
    fault.octets ≠ [] ∧ fault.octets <+: octets.drop fault.position := by
  obtain ⟨text, rest, hoctets, hposition, hne, htaken⟩ := exists_of_decodeFrom_eq_error h
  rw [Nat.zero_add] at hposition
  rw [hoctets, hposition, List.drop_left]
  exact ⟨hne, htaken⟩

end

/-! ### Messages -/

/-- The words for a place in the octets: the octet there with its position, or the positions of the
first and the last of several octets. -/
def Names (octets : List UInt8) (position : Nat) (place : String) : Prop :=
  (∃ octet, octets[position]? = some octet ∧
    place = "byte 0x" ++ String.ofList (hex 2 octet.toNat) ++ " in position " ++
      toString position) ∨
  ∃ last, position < last ∧ last < octets.length ∧
    place = "bytes in position " ++ toString position ++ "-" ++ toString last

/-- The message names the place at which reading stopped. -/
theorem exists_names_of_decode {octets : List UInt8} {fault : Fault}
    (h : decode octets = .error fault) :
    ∃ place, Names octets fault.position place ∧
      fault.message = "'utf-8' codec can't decode " ++ place ++ ": " ++ fault.reason.text := by
  obtain ⟨position, taken, reason⟩ := fault
  obtain ⟨hne, rest, hrest⟩ := taken_of_decode h
  dsimp only at hne hrest ⊢
  cases taken with
  | nil => exact absurd rfl hne
  | cons first taken =>
      cases taken with
      | nil =>
          refine ⟨_, .inl ⟨first, ?_, rfl⟩, rfl⟩
          rw [← List.head?_drop, ← hrest]
          rfl
      | cons second taken =>
          have hlength := congrArg List.length hrest
          rw [List.length_drop, List.length_append, List.length_cons, List.length_cons] at hlength
          refine ⟨_, .inr ⟨position + (first :: second :: taken).length - 1, ?_, ?_, rfl⟩, rfl⟩
          · rw [List.length_cons, List.length_cons]
            omega
          · rw [List.length_cons, List.length_cons]
            omega

end Edl.Text.Utf8
