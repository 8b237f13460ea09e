/-
Blanks at the end of a line are not looked at.

The checks of syntax and meaning skip blanks wherever they look for the next word or sign, so a line
and the same line with blanks after it are recognised alike: every recogniser gives the same answer
at every place of the line, and none inside the blanks.  Only the stretch that a check marks may
reach into the blanks; what is said about it stays the same.

Main definitions:

* `Edl.Text.Blank` — a text of blanks;
* `Edl.Text.SkipsPadding` — a recogniser that does not look at blanks behind a text;
* `Edl.Lint.Check.IgnoresPadding` — a check that says the same of a line with blanks behind it.

Main results:

* `Edl.Text.trimStart_append_blank`, `Edl.Text.trim_append_blank`, `Edl.Text.word_append_blank`,
  `Edl.Text.after?_append_blank` — what the parts of a recogniser make of the blanks;
* `Edl.Text.SkipsPadding.firstMatch` — a search does not look at them either;
* `Edl.Lint.ignoresPadding_missingBracket`, `Edl.Lint.ignoresPadding_invalidEventName`, … — the
  checks of syntax and meaning ignore them.
-/

import Edl.Proofs.Findings

set_option relaxedAutoImplicit false
set_option autoImplicit false

namespace Edl.Text

/-! ### Blanks behind a text -/

/-- A text of blanks. -/
def Blank (pad : List Char) : Prop :=
  ∀ c ∈ pad, isBlank c = true

section

variable {pad : List Char}

theorem Blank.tail {c : Char} (h : Blank (c :: pad)) : Blank pad :=
  fun d hd => h d (List.mem_cons_of_mem c hd)

/-- The code point of a word character is in none of the intervals of blanks. -/
theorem isBlank_of_isWordChar {c : Char} (h : isWordChar c = true) : isBlank c = false := by
  have hupper (hc : c.isUpper = true) : 65 ≤ c.toNat ∧ c.toNat ≤ 90 := of_decide_eq_true hc
  have hlower (hc : c.isLower = true) : 97 ≤ c.toNat ∧ c.toNat ≤ 122 :=
    ((Bool.and_eq_true _ _).mp hc).imp of_decide_eq_true of_decide_eq_true
  have hdigit (hc : c.isDigit = true) : 48 ≤ c.toNat ∧ c.toNat ≤ 57 :=
    ((Bool.and_eq_true _ _).mp hc).imp of_decide_eq_true of_decide_eq_true
  have hcode : 48 ≤ c.toNat ∧ c.toNat ≤ 122 := by
    change (((c.isUpper || c.isLower) || c.isDigit) || c == '_') = true at h
    simp only [Bool.or_eq_true, beq_iff_eq] at h
    rcases h with ((hc | hc) | hc) | rfl
    · have := hupper hc
      omega
    · have := hlower hc
      omega
    · have := hdigit hc
      omega
    · decide
  simp only [isBlank, blankIntervals, List.any_cons, List.any_nil, Bool.or_false,
    Bool.or_eq_false_iff, Bool.and_eq_false_iff, decide_eq_false_iff_not]
  omega

theorem isWordChar_of_isBlank {c : Char} (h : isBlank c = true) : isWordChar c = false := by
  rw [Bool.eq_false_iff]
  intro hword
  rw [isBlank_of_isWordChar hword] at h
  cases h

theorem trimStart_of_blank (h : Blank pad) : trimStart pad = [] := by
  induction pad with
  | nil => rfl
  | cons c pad ih =>
      rw [trimStart, List.dropWhile_cons_of_pos (h c (List.mem_cons_self ..))]
      exact ih h.tail

theorem word_of_blank (h : Blank pad) : word pad = [] := by
  cases pad with
  | nil => rfl
  | cons c pad =>
      have hc := isWordChar_of_isBlank (h c (List.mem_cons_self ..))
      rw [word, List.takeWhile_cons_of_neg (by simp [hc])]

theorem dropWhile_isWordChar_of_blank (h : Blank pad) : pad.dropWhile isWordChar = pad := by
  cases pad with
  | nil => rfl
  | cons c pad =>
      have hc := isWordChar_of_isBlank (h c (List.mem_cons_self ..))
      rw [List.dropWhile_cons_of_neg (by simp [hc])]

/-- Blanks behind a text stay behind what is left of it, unless nothing is left. -/
theorem trimStart_append_blank (h : Blank pad) (text : List Char) :
    trimStart (text ++ pad) = if trimStart text = [] then [] else trimStart text ++ pad := by
  have hpad : pad.dropWhile isBlank = [] := trimStart_of_blank h
  unfold trimStart
  rw [List.dropWhile_append, hpad]
  simp only [List.isEmpty_iff]

theorem word_append_blank (h : Blank pad) (text : List Char) : word (text ++ pad) = word text := by
  have hpad : pad.takeWhile isWordChar = [] := word_of_blank h
  unfold word
  rw [List.takeWhile_append, hpad, List.append_nil]
  split
  · next hall => exact ((List.takeWhile_prefix isWordChar).eq_of_length hall).symm
  · rfl

theorem dropWhile_isWordChar_append_blank (h : Blank pad) (text : List Char) :
    (text ++ pad).dropWhile isWordChar = text.dropWhile isWordChar ++ pad := by
  rw [List.dropWhile_append, dropWhile_isWordChar_of_blank h]
  split
  · next hempty => rw [List.isEmpty_iff.1 hempty, List.nil_append]
  · rfl

/-- The word behind the indentation is the same with blanks behind the text. -/
theorem word_trimStart_append_blank (h : Blank pad) (text : List Char) :
    word (trimStart (text ++ pad)) = word (trimStart text) := by
  rw [trimStart_append_blank h]
  split
  · next hempty => rw [hempty]
  · exact word_append_blank h _

/-- A text that is not blank has the same indentation with blanks behind it. -/
theorem indent_append_blank {text : List Char} (htext : trimStart text ≠ []) :
    indent (text ++ pad) = indent text := by
  unfold indent
  rw [List.takeWhile_append, if_neg]
  intro hall
  have hline := indent_append_trimStart text
  have hlength := congrArg List.length hline
  rw [List.length_append] at hlength
  have hindent : (indent text).length = text.length := hall
  exact htext (List.length_eq_zero_iff.1 (by omega))

theorem trimEnd_of_blank (h : Blank pad) : trimEnd pad = [] := by
  induction pad with
  | nil => rfl
  | cons c pad ih =>
      rw [trimEnd, ih h.tail]
      exact if_pos (h c (List.mem_cons_self ..))

theorem trimEnd_append_blank (h : Blank pad) (text : List Char) :
    trimEnd (text ++ pad) = trimEnd text := by
  induction text with
  | nil => exact trimEnd_of_blank h
  | cons c text ih => rw [List.cons_append, trimEnd, ih, trimEnd]

/-- Blanks behind a line are trimmed off. -/
theorem trim_append_blank (h : Blank pad) (text : List Char) : trim (text ++ pad) = trim text := by
  rw [trim, trim, trimStart_append_blank h]
  split
  · next hempty => rw [hempty]
  · exact trimEnd_append_blank h _

/-- A fixed text without blanks is found before the blanks or not at all. -/
theorem after?_append_blank (h : Blank pad) {head : List Char}
    (hhead : ∀ c ∈ head, isBlank c = false) (text : List Char) :
    after? head (text ++ pad) = (after? head text).map (· ++ pad) := by
  induction head generalizing text with
  | nil => simp
  | cons c head ih =>
      cases text with
      | cons d text =>
          rw [List.cons_append, after?, after?]
          split
          · exact ih (fun e he => hhead e (List.mem_cons_of_mem _ he)) text
          · rfl
      | nil =>
          cases pad with
          | nil => rfl
          | cons d pad =>
              have hne : c ≠ d := by
                rintro rfl
                have hblank := h c (List.mem_cons_self ..)
                rw [hhead c (List.mem_cons_self ..)] at hblank
                cases hblank
              exact if_neg hne

/-- The same behind the indentation. -/
theorem after?_trimStart_append_blank (h : Blank pad) {head : List Char} (hne : head ≠ [])
    (hhead : ∀ c ∈ head, isBlank c = false) (text : List Char) :
    after? head (trimStart (text ++ pad)) = (after? head (trimStart text)).map (· ++ pad) := by
  rw [trimStart_append_blank h]
  split
  · next hempty =>
      obtain ⟨c, head, rfl⟩ := List.exists_cons_of_ne_nil hne
      rw [hempty]
      rfl
  · exact after?_append_blank h hhead _

end

/-! ### Recognisers -/

/-- The recogniser does not look at blanks behind a text. -/
def SkipsPadding {α : Type} (recognise : List Char → Option α) : Prop :=
  ∀ text pad, Blank pad → recognise (text ++ pad) = recognise text

/-- A search finds nothing in the blanks that there was not without them. -/
theorem SkipsPadding.firstMatch {α : Type} {recognise : List Char → Option α}
    (h : SkipsPadding recognise) : SkipsPadding (Text.firstMatch recognise) := by
  intro text pad hpad
  induction text with
  | cons c text ih =>
      rw [List.cons_append, Text.firstMatch, Text.firstMatch, ih, ← List.cons_append,
        h (c :: text) pad hpad]
  | nil =>
      change Text.firstMatch recognise pad = recognise []
      induction pad with
      | nil => rfl
      | cons c pad ih =>
          have hhere : recognise (c :: pad) = recognise [] := h [] (c :: pad) hpad
          rw [Text.firstMatch, ih hpad.tail, hhere]
          cases recognise [] <;> rfl

end Edl.Text

namespace Edl.Lint

open Text

theorem skipsPadding_declaredEvent? : SkipsPadding declaredEvent? := by
  intro text pad hpad
  unfold declaredEvent?
  rw [after?_append_blank hpad (by simp [isBlank, blankIntervals])]
  cases after? ['e', 'v', 'e', 'n', 't'] text with
  | none => rfl
  | some rest =>
      simp only [Option.map_some]
      rw [word_trimStart_append_blank hpad]
      by_cases hword : word (trimStart rest) = []
      · simp [hword]
      · -- there is a word, so the line is not blank up to it
        have hrest : trimStart rest ≠ [] := fun hempty => hword (by rw [hempty]; rfl)
        rw [indent_append_blank hrest]

theorem skipsPadding_emittedEvent? : SkipsPadding emittedEvent? := by
  intro text pad hpad
  unfold emittedEvent?
  rw [after?_append_blank hpad (by simp [isBlank, blankIntervals])]
  cases after? ['e', 'm', 'i', 't'] text with
  | none => rfl
  | some rest =>
      simp only [Option.map_some]
      rw [trimStart_append_blank hpad]
      cases hrest : trimStart rest with
      | nil => rfl
      | cons c arguments =>
          rw [if_neg (by simp), List.cons_append]
          by_cases hc : c = '('
          · subst hc
            simp only [word_trimStart_append_blank hpad]
          · simp [hc]

theorem skipsPadding_transition? : SkipsPadding transition? := by
  intro text pad hpad
  unfold transition?
  rw [word_append_blank hpad, dropWhile_isWordChar_append_blank hpad,
    after?_trimStart_append_blank hpad (by simp) (by simp [isBlank, blankIntervals])]
  cases after? ['-', '>'] (trimStart (text.dropWhile isWordChar)) with
  | none => rfl
  | some rest => simp only [Option.map_some, word_trimStart_append_blank hpad]

/-! ### Checks -/

/-- The check says the same of a line with blanks behind it; the stretch it marks may differ. -/
def Check.IgnoresPadding (check : Check) : Prop :=
  ∀ line pad, Blank pad →
    (check (line ++ pad)).map (Option.map Finding.template) =
      (check line).map (Option.map Finding.template)

theorem count_append_blank {pad : List Char} (h : Blank pad) {c : Char} (hc : isBlank c = false)
    (line : List Char) : (line ++ pad).count c = line.count c := by
  have hout : c ∉ pad := by
    intro hmem
    rw [h c hmem] at hc
    cases hc
  rw [List.count_append, List.count_eq_zero_of_not_mem hout, Nat.add_zero]

theorem ignoresPadding_missingBracket : missingBracket.IgnoresPadding := by
  intro line pad hpad
  unfold missingBracket
  rw [count_append_blank hpad (by decide), count_append_blank hpad (by decide)]
  split <;> rfl

/-- A check of names finds the same name in a line with blanks behind it. -/
theorem FindsParts.ignoresPadding {recognise : List Char → Option (List Char)}
    (h : FindsParts recognise) (hskips : SkipsPadding recognise) {isBad : List Char → Bool}
    {template : List Char → Template} :
    (Check.ofName recognise isBad template).IgnoresPadding := by
  intro line pad hpad
  have hsame := hskips.firstMatch line pad hpad
  cases hmatch : firstMatch recognise line with
  | none =>
      rw [Check.ofName_of_no_match (hsame.trans hmatch), Check.ofName_of_no_match hmatch]
  | some name =>
      obtain ⟨place, -, hcheck⟩ := h.ofName_of_match hmatch
      obtain ⟨place', -, hcheck'⟩ := h.ofName_of_match (hsame.trans hmatch)
      rw [hcheck, hcheck']
      split <;> rfl

theorem ignoresPadding_invalidEventName : invalidEventName.IgnoresPadding :=
  findsParts_declaredEvent?.ignoresPadding skipsPadding_declaredEvent?

theorem ignoresPadding_missingSemicolon : missingSemicolon.IgnoresPadding := by
  intro line pad hpad
  have hcontains : (line ++ pad).contains ';' = line.contains ';' := by
    have hcount := count_append_blank hpad (c := ';') (by decide) line
    rw [Bool.eq_iff_iff, List.contains_iff_mem, List.contains_iff_mem, ← List.count_pos_iff,
      ← List.count_pos_iff, hcount]
  unfold missingSemicolon
  rw [hcontains, trim_append_blank hpad]
  split <;> rfl

theorem ignoresPadding_undefinedEvent : undefinedEvent.IgnoresPadding :=
  findsParts_emittedEvent?.ignoresPadding skipsPadding_emittedEvent?

theorem ignoresPadding_selfTransition : selfTransition.IgnoresPadding := by
  intro line pad hpad
  unfold selfTransition
  rw [skipsPadding_transition?.firstMatch line pad hpad]
  cases firstMatch transition? line with
  | none => rfl
  | some states =>
      dsimp only
      split <;> rfl

end Edl.Lint
