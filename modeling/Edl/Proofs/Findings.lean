/-
What the built-in checks find lies inside the line.

Each check computes the stretch that it marks in its own way: the last character, the whole line,
the blanks at one end, what is beyond a limit, or the place where a name occurs that was recognised
somewhere in the line.  In every case the condition under which the check reports forces the
stretch to hold at least one character and to end inside the line.  A name is looked for in the line
a second time, and this search could fail; it does not, because what was recognised is part of the
line.

Main definitions:

* `Edl.Lint.Finding.Fits` — a stretch of a line that is not empty;
* `Edl.Severity.Counted` — the severities that are counted in a report;
* `Edl.Lint.Check.Tidy` — a check that never fails and finds only such stretches, under one code;
* `Edl.Lint.FindsParts` — a recogniser whose answers are parts of the text.

Main results:

* `Edl.Lint.FindsParts.exists_indexOf?` — a name that was recognised in a line is found there again;
* `Edl.Lint.tidy_missingBracket`, `Edl.Lint.tidy_invalidEventName`, … — the built-in checks are
  tidy.
-/

import Edl.Lint.RuleList
import Edl.Proofs.Search

set_option relaxedAutoImplicit false
set_option autoImplicit false

namespace Edl

/-- One of the three severities that a report counts. -/
def Severity.Counted (s : Severity) : Prop :=
  s = .error ∨ s = .warning ∨ s = .information

namespace Lint

open Text

/-! ### Stretches of a line -/

/-- The finding marks at least one character, and none outside the line. -/
structure Finding.Fits (f : Finding) (line : List Char) : Prop where
  start_nonneg : 0 ≤ f.start
  start_lt_stop : f.start < f.stop
  stop_le : f.stop ≤ line.length

namespace Finding

variable {template : Template} {line part name : List Char}

theorem fits_onLast (h : line ≠ []) : (onLast template line).Fits line := by
  have hpos := List.length_pos_iff.2 h
  constructor <;> simp only [onLast] <;> omega

/-- The finding on all of a part of the line, which starts where the line does. -/
theorem fits_onAll (h : part ≠ []) (hpart : part <+: line) : (onAll template part).Fits line := by
  have hpos := List.length_pos_iff.2 h
  have hle := hpart.length_le
  constructor <;> simp only [onAll] <;> omega

/-- The finding on a name that occurs at a place. -/
theorem fits_onName {place : Nat} (h : name ≠ []) (hplace : indexOf? name line = some place) :
    Fits ⟨template, place, place + name.length⟩ line := by
  have hpos := List.length_pos_iff.2 h
  have hle := indexOf?_add_length_le hplace
  constructor <;> dsimp only <;> omega

end Finding

/-- The check never fails, and everything that it finds fits its line, has the given code and a
severity that counts. -/
def Check.Tidy (check : Check) (code : String) : Prop :=
  ∀ line, ∃ found, check line = .ok found ∧
    ∀ f, found = some f → f.Fits line ∧ f.template.code = code ∧ f.template.severity.Counted

/-! ### Names -/

/-- What the recogniser answers is a part of the text, and not empty. -/
def FindsParts (recognise : List Char → Option (List Char)) : Prop :=
  ∀ text name, recognise text = some name → name ≠ [] ∧ name <:+: text

section

variable {recognise : List Char → Option (List Char)} {isBad : List Char → Bool}
  {template : List Char → Template} {line name : List Char}

/-- A name that was recognised somewhere in a line is found there again. -/
theorem FindsParts.exists_indexOf? (h : FindsParts recognise)
    (hmatch : firstMatch recognise line = some name) :
    name ≠ [] ∧ ∃ place, indexOf? name line = some place := by
  obtain ⟨rest, hsuffix, hrest⟩ := exists_suffix_of_firstMatch hmatch
  obtain ⟨hname, hpart⟩ := h rest name hrest
  exact ⟨hname, exists_indexOf?_of_infix (hpart.trans hsuffix.isInfix)⟩

/-- A check of names finds the first name if it is bad, on its leftmost place. -/
theorem Check.ofName_eq_some_iff {f : Finding} :
    Check.ofName recognise isBad template line = .ok (some f) ↔
      ∃ name place, firstMatch recognise line = some name ∧ isBad name = true ∧
        indexOf? name line = some place ∧ f = ⟨template name, place, place + name.length⟩ := by
  constructor
  · intro h
    unfold Check.ofName at h
    split at h
    · cases h
    · next name hmatch =>
        split at h
        · next hbad =>
            unfold Finding.onName at h
            split at h
            · cases h
            · next place hplace =>
                obtain rfl := Option.some.inj (Except.ok.inj h)
                exact ⟨name, place, hmatch, hbad, hplace, rfl⟩
        · cases h
  · rintro ⟨name, place, hmatch, hbad, hplace, rfl⟩
    simp only [Check.ofName, Finding.onName, hmatch, hplace, if_pos hbad]
    rfl

theorem Check.ofName_of_no_match (hmatch : firstMatch recognise line = none) :
    Check.ofName recognise isBad template line = .ok none := by
  simp only [Check.ofName, hmatch]

/-- A check of names that are parts of the line never fails. -/
theorem FindsParts.ofName_of_match (h : FindsParts recognise)
    (hmatch : firstMatch recognise line = some name) :
    ∃ place, indexOf? name line = some place ∧
      Check.ofName recognise isBad template line =
        .ok (if isBad name then some ⟨template name, place, place + name.length⟩ else none) := by
  obtain ⟨-, place, hplace⟩ := h.exists_indexOf? hmatch
  refine ⟨place, hplace, ?_⟩
  simp only [Check.ofName, Finding.onName, hmatch, hplace]
  split <;> rfl

theorem FindsParts.tidy (h : FindsParts recognise) {code : String}
    (hcode : ∀ name, (template name).code = code)
    (hseverity : ∀ name, (template name).severity.Counted) :
    (Check.ofName recognise isBad template).Tidy code := by
  intro line
  cases hmatch : firstMatch recognise line with
  | none => exact ⟨none, Check.ofName_of_no_match hmatch, nofun⟩
  | some name =>
      obtain ⟨place, hplace, hcheck⟩ := h.ofName_of_match hmatch
      refine ⟨_, hcheck, fun f hf => ?_⟩
      have hname := (h.exists_indexOf? hmatch).1
      split at hf
      · obtain rfl := Option.some.inj hf
        exact ⟨Finding.fits_onName hname hplace, hcode name, hseverity name⟩
      · cases hf

end

/-! ### Syntax -/

theorem tidy_missingBracket : missingBracket.Tidy "missing-bracket" := by
  intro line
  unfold missingBracket
  split
  · exact ⟨none, rfl, nofun⟩
  · next hcount =>
      -- an empty line opens nothing
      have hline : line ≠ [] := by
        rintro rfl
        exact hcount (Nat.le_refl _)
      refine ⟨_, rfl, ?_⟩
      rintro f ⟨⟩
      exact ⟨Finding.fits_onLast hline, rfl, .inl rfl⟩

theorem word_infix_of_suffix {rest text : List Char} (h : rest <:+ text) : word rest <:+: text :=
  (List.takeWhile_prefix isWordChar).isInfix.trans h.isInfix

theorem suffix_of_after? {head text rest : List Char} (h : after? head text = some rest) :
    rest <:+ text :=
  ⟨head, (after?_eq_some_iff.1 h).symm⟩

theorem trimStart_suffix (text : List Char) : trimStart text <:+ text :=
  List.dropWhile_suffix isBlank

/-- A declared name is part of the declaration. -/
theorem findsParts_declaredEvent? : FindsParts declaredEvent? := by
  intro text name h
  unfold declaredEvent? at h
  split at h
  · cases h
  · next rest hrest =>
      split at h
      · cases h
      · next hname =>
          obtain rfl := Option.some.inj h
          have hnonempty : word (trimStart rest) ≠ [] := by
            intro hempty
            exact hname (by simp [hempty])
          exact ⟨hnonempty,
            word_infix_of_suffix ((trimStart_suffix rest).trans (suffix_of_after? hrest))⟩

theorem tidy_invalidEventName : invalidEventName.Tidy "invalid-event-name" :=
  findsParts_declaredEvent?.tidy (fun _ => rfl) fun _ => .inl rfl

theorem tidy_missingSemicolon : missingSemicolon.Tidy "missing-semicolon" := by
  intro line
  unfold missingSemicolon
  split
  · exact ⟨none, rfl, nofun⟩
  · next hstatement =>
      -- an empty line is no statement
      have hline : line ≠ [] := by
        rintro rfl
        exact hstatement (by decide)
      refine ⟨_, rfl, ?_⟩
      rintro f ⟨⟩
      exact ⟨Finding.fits_onLast hline, rfl, .inr (.inl rfl)⟩

/-! ### Meaning -/

/-- An emitted name is part of the call. -/
theorem findsParts_emittedEvent? : FindsParts emittedEvent? := by
  intro text name h
  unfold emittedEvent? at h
  split at h
  · cases h
  · next rest hrest =>
      split at h
      · next arguments hcall =>
          split at h
          · cases h
          · next hname =>
              obtain rfl := Option.some.inj h
              have harguments : arguments <:+ text :=
                ((List.suffix_cons '(' arguments).trans (hcall ▸ trimStart_suffix rest)).trans
                  (suffix_of_after? hrest)
              exact ⟨hname, word_infix_of_suffix ((trimStart_suffix arguments).trans harguments)⟩
      · cases h

theorem tidy_undefinedEvent : undefinedEvent.Tidy "undefined-event" :=
  findsParts_emittedEvent?.tidy (fun _ => rfl) fun _ => .inl rfl

theorem tidy_selfTransition : selfTransition.Tidy "self-transition" := by
  intro line
  unfold selfTransition
  split
  · exact ⟨none, rfl, nofun⟩
  · next left right hmatch =>
      split
      · -- an empty line has no transition
        have hline : line ≠ [] := by
          rintro rfl
          have hnone : firstMatch transition? [] = none := rfl
          rw [hnone] at hmatch
          cases hmatch
        refine ⟨_, rfl, ?_⟩
        rintro f ⟨⟩
        exact ⟨Finding.fits_onAll hline List.prefix_rfl, rfl, .inr (.inl rfl)⟩
      · exact ⟨none, rfl, nofun⟩

/-! ### Style -/

theorem tidy_lineTooLong (limit : Nat) : (lineTooLong limit).Tidy "line-too-long" := by
  intro line
  unfold lineTooLong
  split
  · exact ⟨none, rfl, nofun⟩
  · next hlong =>
      refine ⟨_, rfl, ?_⟩
      rintro f ⟨⟩
      refine ⟨⟨?_, ?_, ?_⟩, rfl, .inr (.inr rfl)⟩ <;> dsimp only <;> omega

theorem tidy_mixedIndentation : mixedIndentation.Tidy "mixed-indentation" := by
  intro line
  unfold mixedIndentation
  split
  · next hmixed =>
      have hindent : indent line ≠ [] := by
        intro hempty
        rw [hempty] at hmixed
        exact absurd hmixed (by decide)
      refine ⟨_, rfl, ?_⟩
      rintro f ⟨⟩
      exact ⟨Finding.fits_onAll hindent (List.takeWhile_prefix isBlank), rfl, .inr (.inl rfl)⟩
  · exact ⟨none, rfl, nofun⟩

/-- Trimming the end of a line that ends in a blank makes it shorter. -/
theorem length_trimEnd_lt {line : List Char} (h : endsInBlank line = true) :
    (trimEnd line).length < line.length := by
  induction line with
  | nil => cases h
  | cons c rest ih =>
      rw [trimEnd]
      cases rest with
      | nil =>
          have hblank : isBlank c = true := h
          simp [hblank]
      | cons d rest =>
          have hshorter := ih h
          split
          · split <;> simp
          · next kept hkept =>
              rw [hkept] at hshorter
              simpa using hshorter

theorem tidy_trailingWhitespace : trailingWhitespace.Tidy "trailing-whitespace" := by
  intro line
  unfold trailingWhitespace
  split
  · next hblank =>
      have hlt := length_trimEnd_lt hblank
      refine ⟨_, rfl, ?_⟩
      rintro f ⟨⟩
      refine ⟨⟨?_, ?_, ?_⟩, rfl, .inr (.inr rfl)⟩ <;> dsimp only <;> omega
  · exact ⟨none, rfl, nofun⟩

end Lint

end Edl
