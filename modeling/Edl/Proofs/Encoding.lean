/-
Reading what was written as UTF-8.

A character is written with one to four octets.  The first of them tells how many there are, and the
others satisfy the conditions under which they may follow it; so reading the octets of a text gives
the text back, whatever stands behind it.

Main results:

* `Edl.Text.Utf8.decodeFrom_of_width_two` and its kin — reading one character;
* `Edl.Text.Utf8.decodeFrom_encodeChar` — the octets of a character are read as the character;
* `Edl.Text.Utf8.decodeFrom_encode_append` — so are those of a text, whatever stands behind them;
* `Edl.Text.Utf8.decode_encode` — **the octets of a text are read as the text**.
-/

import Edl.Text.Utf8

set_option relaxedAutoImplicit false
set_option autoImplicit false

namespace Edl.Text.Utf8

/-! ### Octets as numbers -/

theorem width_of_lt {a : UInt8} (h : a.toNat < 0x80) : width a = 1 := by
  simp [width, UInt8.lt_iff_toNat_lt, h]

theorem width_of_two {a : UInt8} (h : 0xC2 ≤ a.toNat) (h' : a.toNat < 0xE0) : width a = 2 := by
  have h₁ : ¬a.toNat < 0x80 := by omega
  have h₂ : ¬a.toNat < 0xC2 := by omega
  simp [width, UInt8.lt_iff_toNat_lt, h₁, h₂, h']

theorem width_of_three {a : UInt8} (h : 0xE0 ≤ a.toNat) (h' : a.toNat < 0xF0) : width a = 3 := by
  have h₁ : ¬a.toNat < 0x80 := by omega
  have h₂ : ¬a.toNat < 0xC2 := by omega
  have h₃ : ¬a.toNat < 0xE0 := by omega
  simp [width, UInt8.lt_iff_toNat_lt, h₁, h₂, h₃, h']

theorem width_of_four {a : UInt8} (h : 0xF0 ≤ a.toNat) (h' : a.toNat < 0xF5) : width a = 4 := by
  have h₁ : ¬a.toNat < 0x80 := by omega
  have h₂ : ¬a.toNat < 0xC2 := by omega
  have h₃ : ¬a.toNat < 0xE0 := by omega
  have h₄ : ¬a.toNat < 0xF0 := by omega
  simp [width, UInt8.lt_iff_toNat_lt, h₁, h₂, h₃, h₄, h']

theorem continues_iff {b : UInt8} : continues b = true ↔ 0x80 ≤ b.toNat ∧ b.toNat < 0xC0 := by
  simp [continues, UInt8.le_iff_toNat_le, UInt8.lt_iff_toNat_lt]

/-- Which octets may come second depends on the first one in four cases. -/
theorem continuesFirst_iff {a b : UInt8} :
    continuesFirst a b = true ↔ (0x80 ≤ b.toNat ∧ b.toNat < 0xC0) ∧
      (a.toNat = 0xE0 → 0xA0 ≤ b.toNat) ∧ (a.toNat = 0xED → b.toNat < 0xA0) ∧
      (a.toNat = 0xF0 → 0x90 ≤ b.toNat) ∧ (a.toNat = 0xF4 → b.toNat < 0x90) := by
  simp only [continuesFirst, continues, ← UInt8.toNat_inj, UInt8.le_iff_toNat_le,
    UInt8.lt_iff_toNat_lt, UInt8.reduceToNat]
  repeat' split
  all_goals simp only [Bool.and_eq_true, decide_eq_true_eq]; omega

/-! ### Reading one character -/

section

variable {position : Nat} {a b c d : UInt8} {rest : List UInt8}

theorem decodeFrom_of_width_one (ha : width a = 1) :
    decodeFrom position (a :: rest) =
      (decodeFrom (position + 1) rest).map (Char.ofNat a.toNat :: ·) := by
  rw [decodeFrom.eq_def]
  simp only [ha]

theorem decodeFrom_of_width_two (ha : width a = 2) (hb : continues b = true) :
    decodeFrom position (a :: b :: rest) =
      (decodeFrom (position + 2) rest).map
        (Char.ofNat (a.toNat % 32 * 64 + payload b) :: ·) := by
  rw [decodeFrom.eq_def]
  simp [ha, hb]

theorem decodeFrom_of_width_three (ha : width a = 3) (hb : continuesFirst a b = true)
    (hc : continues c = true) :
    decodeFrom position (a :: b :: c :: rest) =
      (decodeFrom (position + 3) rest).map
        (Char.ofNat ((a.toNat % 16 * 64 + payload b) * 64 + payload c) :: ·) := by
  rw [decodeFrom.eq_def]
  simp [ha, hb, hc]

theorem decodeFrom_of_width_four (ha : width a = 4) (hb : continuesFirst a b = true)
    (hc : continues c = true) (hd : continues d = true) :
    decodeFrom position (a :: b :: c :: d :: rest) =
      (decodeFrom (position + 4) rest).map
        (Char.ofNat (((a.toNat % 8 * 64 + payload b) * 64 + payload c) * 64 + payload d) ::
          ·) := by
  rw [decodeFrom.eq_def]
  simp [ha, hb, hc, hd]

end

/-- Numbers below 256 are octets. -/
theorem toNat_ofNat_of_lt {n : Nat} (h : n < 256) : (UInt8.ofNat n).toNat = n := by
  rw [UInt8.toNat_ofNat']
  omega

/-- The octets of a character are read as the character. -/
theorem decodeFrom_encodeChar (position : Nat) (c : Char) (rest : List UInt8) :
    decodeFrom position (String.utf8EncodeChar c ++ rest) =
      (decodeFrom (position + (String.utf8EncodeChar c).length) rest).map (c :: ·) := by
  have hvalid : c.toNat < 0xD800 ∨ (0xDFFF < c.toNat ∧ c.toNat < 0x110000) := c.valid
  have hchar : ∀ n, n = c.toNat → Char.ofNat n = c := by
    rintro n rfl
    exact Char.ofNat_toNat c
  have hcode : c.val.toNat = c.toNat := rfl
  simp only [String.utf8EncodeChar, hcode]
  generalize c.toNat = v at hvalid hchar
  split
  · next h₁ =>
      have ha : (UInt8.ofNat v).toNat = v := toNat_ofNat_of_lt (by omega)
      rw [List.singleton_append, decodeFrom_of_width_one (width_of_lt (by omega)), ha, hchar v rfl]
      rfl
  · split
    · next h₁ h₂ =>
        have ha := toNat_ofNat_of_lt (n := v / 64 % 32 + 192) (by omega)
        have hb := toNat_ofNat_of_lt (n := v % 64 + 128) (by omega)
        rw [List.cons_append, List.singleton_append,
          decodeFrom_of_width_two (width_of_two (by omega) (by omega)) (continues_iff.2 (by omega)),
          payload, ha, hb, hchar _ (by omega)]
        rfl
    · split
      · next h₁ h₂ h₃ =>
          have ha := toNat_ofNat_of_lt (n := v / 4096 % 16 + 224) (by omega)
          have hb := toNat_ofNat_of_lt (n := v / 64 % 64 + 128) (by omega)
          have hc := toNat_ofNat_of_lt (n := v % 64 + 128) (by omega)
          rw [List.cons_append, List.cons_append, List.singleton_append,
            decodeFrom_of_width_three (width_of_three (by omega) (by omega))
              (continuesFirst_iff.2 (by omega))
              (continues_iff.2 (by omega)),
            payload, payload, ha, hb, hc, hchar _ (by omega)]
          rfl
      · next h₁ h₂ h₃ =>
          have ha := toNat_ofNat_of_lt (n := v / 262144 % 8 + 240) (by omega)
          have hb := toNat_ofNat_of_lt (n := v / 4096 % 64 + 128) (by omega)
          have hc := toNat_ofNat_of_lt (n := v / 64 % 64 + 128) (by omega)
          have hd := toNat_ofNat_of_lt (n := v % 64 + 128) (by omega)
          rw [List.cons_append, List.cons_append, List.cons_append, List.singleton_append,
            decodeFrom_of_width_four (width_of_four (by omega) (by omega))
              (continuesFirst_iff.2 (by omega))
              (continues_iff.2 (by omega)) (continues_iff.2 (by omega)),
            payload, payload, payload, ha, hb, hc, hd, hchar _ (by omega)]
          rfl

/-! ### Reading a text -/

/-- The octets of a text are read as the text, and what stands behind them is read then. -/
theorem decodeFrom_encode_append (position : Nat) (text : List Char) (rest : List UInt8) :
    decodeFrom position (encode text ++ rest) =
      (decodeFrom (position + (encode text).length) rest).map (text ++ ·) := by
  induction text generalizing position with
  | nil =>
      change decodeFrom position rest = (decodeFrom position rest).map id
      cases decodeFrom position rest <;> rfl
  | cons c text ih =>
      rw [encode, List.flatMap_cons, List.append_assoc, decodeFrom_encodeChar, ← encode, ih,
        List.length_append, Nat.add_assoc]
      cases decodeFrom (position + ((String.utf8EncodeChar c).length + (encode text).length)) rest
        <;> rfl

/-- **The octets of a text are read as the text.** -/
theorem decode_encode (text : List Char) : decode (encode text) = .ok text := by
  have hread := decodeFrom_encode_append 0 text []
  rw [List.append_nil] at hread
  rw [decode, hread]
  exact congrArg Except.ok (List.append_nil text)

end Edl.Text.Utf8
