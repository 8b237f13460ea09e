/-
Which name an emission is read with, and what is said about it.

The check of emitted events looks for the leftmost place at which the word `emit`, an opening
parenthesis and a name can be read, with blanks allowed in between; it asks whether that name is a
placeholder; and then it marks the leftmost place at which the name occurs, which may be anywhere
in front, even inside another word.  The name is quoted in the message.  Two facts make the
quotation right wherever the mark is: the name is a part of the line, so there is a leftmost place,
and what stands there is the name.

Main definitions:

* `Edl.Lint.Emission` — an emission in a line, with the ends of its name;
* `Edl.Lint.FirstEmission` — the first emission of a line;
* `Edl.Lint.Placeholder` — a name that holds the word `undefined` or is `null`.

Main results:

* `Edl.Lint.emittedEvent?_drop_eq_some_iff`, `Edl.Lint.firstMatch_emittedEvent?_eq_some_iff` — what
  is read from a place, and from a line;
* `Edl.Lint.isPlaceholder_iff` — which names are refused;
* `Edl.Lint.undefined_event_quotes_the_marked_text` — **the report on a line**.
-/

import Edl.Proofs.Declaration

set_option relaxedAutoImplicit false
set_option autoImplicit false

namespace Edl.Lint

open Text

/-! ### Emissions -/

/-- The word `emit` stands at `emit`; behind it and any blanks there is a parenthesis at `paren`;
and the word behind that and any blanks goes from `name` up to `stop`. -/
structure Emission (line : List Char) (emit paren name stop : Nat) : Prop where
  keyword : ['e', 'm', 'i', 't'] <+: line.drop emit
  gap : Span isBlank line (emit + 4) paren
  opening : ['('] <+: line.drop paren
  inner : Span isBlank line (paren + 1) name
  word : Span isWordChar line name stop
  nonempty : name < stop

/-- An emission such that there is none further left. -/
def FirstEmission (line : List Char) (emit name stop : Nat) : Prop :=
  (∃ paren, Emission line emit paren name stop) ∧
    ∀ e < emit, ∀ n s, ¬∃ paren, Emission line e paren n s

section

variable {line name : List Char} {emit : Nat}

/-- An emitted name is read in four steps, each of which can fail. -/
theorem emittedEvent?_eq_some_iff {text : List Char} :
    emittedEvent? text = some name ↔
      ∃ rest arguments, after? ['e', 'm', 'i', 't'] text = some rest ∧
        trimStart rest = '(' :: arguments ∧ name = word (trimStart arguments) ∧ name ≠ [] := by
  unfold emittedEvent?
  constructor
  · intro h
    split at h
    · cases h
    · next rest hrest =>
        split at h
        · next arguments hopening =>
            split at h
            · cases h
            · next hname =>
                obtain rfl := Option.some.inj h
                exact ⟨rest, arguments, hrest, hopening, rfl, hname⟩
        · cases h
  · rintro ⟨rest, arguments, hrest, hopening, rfl, hname⟩
    rw [hrest]
    dsimp only
    rw [hopening]
    exact if_neg hname

/-- From a place one reads the name that is emitted there. -/
theorem emittedEvent?_drop_eq_some_iff :
    emittedEvent? (line.drop emit) = some name ↔
      ∃ start stop, (∃ paren, Emission line emit paren start stop) ∧
        name = slice line start stop := by
  rw [emittedEvent?_eq_some_iff]
  constructor
  · rintro ⟨rest, arguments, hkeyword, hopening, rfl, hname⟩
    obtain ⟨hemit, hrest⟩ := after?_drop_eq_some_iff.1 hkeyword
    obtain rfl : rest = line.drop (emit + 4) := hrest
    -- the ends of the parts are found from left to right
    obtain ⟨paren, hgap, -⟩ := exists_span isBlank line (emit + 4)
    rw [hgap.trimStart_drop] at hopening
    obtain ⟨-, rfl⟩ := drop_eq_cons_iff.1 hopening
    obtain ⟨start, hinner, -⟩ := exists_span isBlank line (paren + 1)
    obtain ⟨stop, hword, -⟩ := exists_span isWordChar line start
    rw [hinner.trimStart_drop, hword.word_drop] at hname ⊢
    have hnonempty : start < stop :=
      Nat.lt_of_le_of_ne hword.le (Ne.symm (mt hword.slice_eq_nil_iff.2 hname))
    exact ⟨start, stop, ⟨paren, hemit, hgap, ⟨_, hopening.symm⟩, hinner, hword, hnonempty⟩, rfl⟩
  · rintro ⟨start, stop, ⟨paren, h⟩, rfl⟩
    obtain ⟨hparen, -⟩ := cons_prefix_drop_iff.1 h.opening
    refine ⟨_, line.drop (paren + 1), after?_drop_eq_some_iff.2 ⟨h.keyword, rfl⟩, ?_, ?_, ?_⟩
    · exact h.gap.trimStart_drop.trans (drop_eq_cons_iff.2 ⟨hparen, rfl⟩)
    · rw [h.inner.trimStart_drop, h.word.word_drop]
    · exact mt h.word.slice_eq_nil_iff.1 (Nat.ne_of_gt h.nonempty)

/-- From a line one reads the name of its first emission. -/
theorem firstMatch_emittedEvent?_eq_some_iff :
    firstMatch emittedEvent? line = some name ↔
      ∃ emit start stop, FirstEmission line emit start stop ∧ name = slice line start stop :=
  firstMatch_eq_some_iff_slice fun _ _ => emittedEvent?_drop_eq_some_iff

end

/-! ### Placeholders -/

/-- The name holds the word `undefined` somewhere, or it is `null` and nothing else. -/
def Placeholder (name : List Char) : Prop :=
  "undefined".toList <:+: name ∨ name = "null".toList

theorem isPlaceholder_iff {name : List Char} : isPlaceholder name = true ↔ Placeholder name := by
  rw [isPlaceholder, Bool.or_eq_true, occurs_iff, beq_iff_eq]
  rfl

/-! ### Reports -/

/-- A line has a finding when the name of its first emission is a placeholder. -/
theorem undefinedEvent_eq_some_iff {line : List Char} {f : Finding} :
    undefinedEvent line = .ok (some f) ↔
      ∃ emit start stop place, FirstEmission line emit start stop ∧
        Placeholder (slice line start stop) ∧ indexOf? (slice line start stop) line = some place ∧
        f = ⟨undefinedEventNamed (slice line start stop), place,
          place + (slice line start stop).length⟩ := by
  refine Check.ofName_eq_some_iff.trans ?_
  constructor
  · rintro ⟨name, place, hfound, hname, hplace, rfl⟩
    obtain ⟨emit, start, stop, hfirst, rfl⟩ := firstMatch_emittedEvent?_eq_some_iff.1 hfound
    exact ⟨emit, start, stop, place, hfirst, isPlaceholder_iff.1 hname, hplace, rfl⟩
  · rintro ⟨emit, start, stop, place, hfirst, hname, hplace, rfl⟩
    have hfound := firstMatch_emittedEvent?_eq_some_iff.2 ⟨emit, start, stop, hfirst, rfl⟩
    exact ⟨_, place, hfound, isPlaceholder_iff.2 hname, hplace, rfl⟩

/-- **The check of emitted events reports the first emission of a line if its name is a
placeholder.**  There is then one finding, as long as the name, on the first place where the name
occurs in the line, and its message quotes what stands there.  When the line has no emission, or the
name of the first one is no placeholder, nothing is reported, whatever is emitted further right. -/
theorem undefined_event_quotes_the_marked_text (line : String) (number : Nat) :
    (undefinedEventRule.run line number = .ok [] ↔
      ¬∃ emit start stop, FirstEmission line.toList emit start stop ∧
        Placeholder (slice line.toList start stop)) ∧
    ∀ emit start stop, FirstEmission line.toList emit start stop →
      Placeholder (slice line.toList start stop) →
      ∃ place, slice line.toList start stop <+: line.toList.drop place ∧
        (∀ k < place, ¬slice line.toList start stop <+: line.toList.drop k) ∧
        undefinedEventRule.run line number =
          .ok [Template.diagnostic
            { Catalog.undefinedEvent with
              message := "Undefined event: " ++ String.ofList
                (slice line.toList place (place + (slice line.toList start stop).length)) }
            (.stretch number place (slice line.toList start stop).length)] := by
  constructor
  · refine (tidy_undefinedEvent.report_eq_nil_iff line number).trans ?_
    constructor
    · rintro hnone ⟨emit, start, stop, hfirst, hname⟩
      obtain ⟨place, hplace, -⟩ := exists_first_place line.toList start stop
      exact hnone _ (undefinedEvent_eq_some_iff.2
        ⟨emit, start, stop, place, hfirst, hname, hplace, rfl⟩)
    · intro hnone f hf
      obtain ⟨emit, start, stop, place, hfirst, hname, -⟩ := undefinedEvent_eq_some_iff.1 hf
      exact hnone ⟨emit, start, stop, hfirst, hname⟩
  · intro emit start stop hfirst hname
    obtain ⟨place, hplace, -, hhere, hleast⟩ := exists_first_place line.toList start stop
    have hfinding := undefinedEvent_eq_some_iff.2
      ⟨emit, start, stop, place, hfirst, hname, hplace, rfl⟩
    have hreport := tidy_undefinedEvent.report_of_eq_some hfinding number
    rw [Finding.range_onName] at hreport
    refine ⟨place, hhere, hleast, ?_⟩
    rw [slice_of_prefix_drop hhere]
    exact hreport

example : undefinedEventRule.run "renulls emit x(null) emit ( null" 0 =
    .ok [(undefinedEventNamed ['n', 'u', 'l', 'l']).diagnostic (.stretch 0 2 4)] := by
  rfl

example : undefinedEventRule.run "emit(a) emit(null)" 0 = .ok [] := by
  rfl

end Edl.Lint
