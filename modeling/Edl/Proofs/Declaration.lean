/-
Which name a declaration is read with, and where it is marked.

The check of event names brings three searches together.  It looks for the leftmost place at which
the word `event`, blanks and a name can be read; it asks whether that name is in lower case; and it
marks the leftmost place at which the name occurs, which may be in front of the declaration.  Here
all three are told by places in the line.  The first declaration is found whatever precedes or
follows the word `event`, the name is the longest run of word characters behind the blanks, and its
mark is never to the right of it.

Main definitions:

* `Edl.Lint.Declaration` — a declaration in a line, with the ends of its name;
* `Edl.Lint.FirstDeclaration` — the first declaration of a line;
* `Edl.Lint.BadEventName` — a name that does not start with a lower-case letter or holds an
  upper-case one.

Main results:

* `Edl.Lint.declaredEvent?_drop_eq_some_iff`, `Edl.Lint.firstMatch_declaredEvent?_eq_some_iff` —
  what is read from a place, and from a line;
* `Edl.Lint.isEventName_eq_false_iff` — which names are refused;
* `Edl.Lint.exists_first_place` — where a name is marked;
* `Edl.Lint.invalid_event_name_marks_the_first_declaration` — **the report on a line**.
-/

import Edl.Proofs.Span
import Edl.Proofs.Stretch

set_option relaxedAutoImplicit false
set_option autoImplicit false

namespace Edl.Lint

open Text

/-! ### Declarations -/

/-- The word `event` stands at `event`, there are one or more blanks behind it, and the word behind
all of them goes from `name` up to `stop`. -/
structure Declaration (line : List Char) (event name stop : Nat) : Prop where
  keyword : ['e', 'v', 'e', 'n', 't'] <+: line.drop event
  gap : Span isBlank line (event + 5) name
  apart : event + 5 < name
  word : Span isWordChar line name stop
  nonempty : name < stop

/-- A declaration such that there is none further left. -/
def FirstDeclaration (line : List Char) (event name stop : Nat) : Prop :=
  Declaration line event name stop ∧ ∀ e < event, ∀ n s, ¬Declaration line e n s

section

variable {line name : List Char} {event start stop : Nat}

/-- What is read from a place, by the ends of the parts. -/
theorem declaredEvent?_drop (hgap : Span isBlank line (event + 5) start)
    (hword : Span isWordChar line start stop) :
    declaredEvent? (line.drop event) = some name ↔
      ['e', 'v', 'e', 'n', 't'] <+: line.drop event ∧ event + 5 < start ∧ start < stop ∧
        name = slice line start stop := by
  have hle := hgap.le
  have hle' := hword.le
  unfold declaredEvent?
  cases hkeyword : after? ['e', 'v', 'e', 'n', 't'] (line.drop event) with
  | none =>
      refine iff_of_false (by simp) fun h => ?_
      have hsome := after?_drop_eq_some_iff.2 ⟨h.1, rfl⟩
      rw [hkeyword] at hsome
      cases hsome
  | some rest =>
      obtain ⟨hevent, hrest⟩ := after?_drop_eq_some_iff.1 hkeyword
      obtain rfl : rest = line.drop (event + 5) := hrest
      have hindent : indent (line.drop (event + 5)) = slice line (event + 5) start :=
        hgap.takeWhile_drop
      have hcond : (decide (slice line (event + 5) start = []) ||
          decide (slice line start stop = [])) = true ↔ start = event + 5 ∨ stop = start := by
        rw [Bool.or_eq_true, decide_eq_true_iff, decide_eq_true_iff, hgap.slice_eq_nil_iff,
          hword.slice_eq_nil_iff]
      dsimp only
      rw [hindent, hgap.trimStart_drop, hword.word_drop]
      by_cases hempty : start = event + 5 ∨ stop = start
      · rw [if_pos (hcond.2 hempty)]
        exact iff_of_false (by simp) fun h => by omega
      · rw [if_neg (mt hcond.1 hempty), Option.some_inj]
        constructor
        · rintro rfl
          exact ⟨hevent, by omega, by omega, rfl⟩
        · rintro ⟨-, -, -, rfl⟩
          rfl

/-- From a place one reads the name that is declared there. -/
theorem declaredEvent?_drop_eq_some_iff :
    declaredEvent? (line.drop event) = some name ↔
      ∃ start stop, Declaration line event start stop ∧ name = slice line start stop := by
  obtain ⟨start, hgap, -⟩ := exists_span isBlank line (event + 5)
  obtain ⟨stop, hword, -⟩ := exists_span isWordChar line start
  rw [declaredEvent?_drop hgap hword]
  constructor
  · rintro ⟨hevent, hapart, hnonempty, rfl⟩
    exact ⟨start, stop, ⟨hevent, hgap, hapart, hword, hnonempty⟩, rfl⟩
  · rintro ⟨start', stop', hdeclared, rfl⟩
    obtain rfl := hgap.unique hdeclared.gap
    obtain rfl := hword.unique hdeclared.word
    exact ⟨hdeclared.keyword, hdeclared.apart, hdeclared.nonempty, rfl⟩

/-- From a line one reads the name of its first declaration. -/
theorem firstMatch_declaredEvent?_eq_some_iff :
    firstMatch declaredEvent? line = some name ↔
      ∃ event start stop, FirstDeclaration line event start stop ∧
        name = slice line start stop :=
  firstMatch_eq_some_iff_slice fun _ _ => declaredEvent?_drop_eq_some_iff

end

/-! ### Names -/

/-- The name starts with something other than a lower-case letter, or holds an upper-case letter. -/
def BadEventName (name : List Char) : Prop :=
  (∃ c, name.head? = some c ∧ c.isLower = false) ∨ ∃ c ∈ name, c.isUpper = true

/-- A word character is an upper-case letter if it is not one of the others. -/
theorem isLower_or_isDigit_eq_not_isUpper {c : Char} (h : isWordChar c = true) :
    (c.isLower || c.isDigit || c == '_') = !c.isUpper := by
  cases hupper : c.isUpper with
  | false =>
      change (((c.isUpper || c.isLower) || c.isDigit) || c == '_') = true at h
      rw [hupper, Bool.false_or] at h
      exact h
  | true =>
      have hcode : 65 ≤ c.toNat ∧ c.toNat ≤ 90 := of_decide_eq_true hupper
      have hlower : c.isLower = false := by
        refine Bool.eq_false_iff.2 fun hc => ?_
        have hrange : 97 ≤ c.toNat ∧ c.toNat ≤ 122 :=
          ((Bool.and_eq_true _ _).mp hc).imp of_decide_eq_true of_decide_eq_true
        omega
      have hdigit : c.isDigit = false := by
        refine Bool.eq_false_iff.2 fun hc => ?_
        have hrange : 48 ≤ c.toNat ∧ c.toNat ≤ 57 :=
          ((Bool.and_eq_true _ _).mp hc).imp of_decide_eq_true of_decide_eq_true
        omega
      have hunderscore : (c == '_') = false := by
        refine beq_eq_false_iff_ne.2 ?_
        rintro rfl
        exact absurd hcode (by decide)
      rw [hlower, hdigit, hunderscore]
      rfl

/-- Among the words, the bad names are those that are refused. -/
theorem isEventName_eq_false_iff {name : List Char} (hne : name ≠ [])
    (hword : ∀ c ∈ name, isWordChar c = true) : isEventName name = false ↔ BadEventName name := by
  obtain ⟨c, rest, rfl⟩ := List.exists_cons_of_ne_nil hne
  obtain ⟨hc, hrest⟩ := List.forall_mem_cons.1 hword
  have hall : (rest.all fun d => d.isLower || d.isDigit || d == '_') =
      rest.all fun d => !d.isUpper := by
    rw [Bool.eq_iff_iff, List.all_eq_true, List.all_eq_true]
    refine forall₂_congr fun d hd => ?_
    rw [isLower_or_isDigit_eq_not_isUpper (hrest d hd)]
  have hhead : c.isUpper = true → c.isLower = false := by
    intro hupper
    have hclass := isLower_or_isDigit_eq_not_isUpper hc
    rw [hupper] at hclass
    simp only [Bool.not_true, Bool.or_eq_false_iff] at hclass
    exact hclass.1.1
  rw [isEventName, hall, Bool.and_eq_false_iff, List.all_eq_false]
  simp only [BadEventName, List.head?_cons, Option.some_inj, List.mem_cons, exists_eq_left',
    exists_eq_or_imp, Bool.not_eq_true', Bool.not_eq_false]
  constructor
  · rintro (hlower | hupper)
    · exact .inl hlower
    · exact .inr (.inr hupper)
  · rintro (hlower | hupper | hupper)
    · exact .inl hlower
    · exact .inl (hhead hupper)
    · exact .inr hupper

/-! ### Marks -/

/-- A part of a line has a first place in the line, and it is not to the right of the part. -/
theorem exists_first_place (line : List Char) (start stop : Nat) :
    ∃ place, indexOf? (slice line start stop) line = some place ∧ place ≤ start ∧
      slice line start stop <+: line.drop place ∧
      ∀ k < place, ¬slice line start stop <+: line.drop k := by
  have hpart := slice_prefix_drop line start stop
  obtain ⟨place, hplace⟩ := exists_indexOf?_of_infix
    (hpart.isInfix.trans (List.drop_suffix start line).isInfix)
  obtain ⟨-, hhere, hleast⟩ := indexOf?_eq_some_iff.1 hplace
  exact ⟨place, hplace, Nat.le_of_not_lt fun hlt => hleast start hlt hpart, hhere, hleast⟩

theorem Finding.range_onName (template : Template) (place length number : Nat) :
    Finding.range ⟨template, place, place + length⟩ number = .stretch number place length := by
  have hlength : ((place : Int) + length - place).toNat = length := by omega
  simp only [Finding.range, Int.toNat_natCast, hlength]

/-! ### Reports -/

/-- A line has a finding when the name of its first declaration is bad. -/
theorem invalidEventName_eq_some_iff {line : List Char} {f : Finding} :
    invalidEventName line = .ok (some f) ↔
      ∃ event start stop place, FirstDeclaration line event start stop ∧
        BadEventName (slice line start stop) ∧
        indexOf? (slice line start stop) line = some place ∧
        f = ⟨Catalog.invalidEventName, place, place + (slice line start stop).length⟩ := by
  have hbad : ∀ {event start stop}, FirstDeclaration line event start stop →
      ((!isEventName (slice line start stop)) = true ↔ BadEventName (slice line start stop)) := by
    intro event start stop hfirst
    rw [Bool.not_eq_true']
    refine isEventName_eq_false_iff ?_ fun c hc => ?_
    · exact mt hfirst.1.word.slice_eq_nil_iff.1 (Nat.ne_of_gt hfirst.1.nonempty)
    · obtain ⟨k, hk, hk', hat⟩ := mem_slice_iff.1 hc
      exact (at_iff_of_getElem? hat).1 (hfirst.1.word.inside k hk hk')
  refine Check.ofName_eq_some_iff.trans ?_
  constructor
  · rintro ⟨name, place, hfound, hrefused, hplace, rfl⟩
    obtain ⟨event, start, stop, hfirst, rfl⟩ := firstMatch_declaredEvent?_eq_some_iff.1 hfound
    exact ⟨event, start, stop, place, hfirst, (hbad hfirst).1 hrefused, hplace, rfl⟩
  · rintro ⟨event, start, stop, place, hfirst, hname, hplace, rfl⟩
    have hfound := firstMatch_declaredEvent?_eq_some_iff.2 ⟨event, start, stop, hfirst, rfl⟩
    exact ⟨_, place, hfound, (hbad hfirst).2 hname, hplace, rfl⟩

/-- **The check of event names reports the first declaration of a line if its name is bad.**  There
is then one finding, as long as the name, on the first place where the name occurs in the line; this
is the declared name itself or to the left of it.  When the line has no declaration, or the name of
the first one is not bad, nothing is reported. -/
theorem invalid_event_name_marks_the_first_declaration (line : String) (number : Nat) :
    (invalidEventNameRule.run line number = .ok [] ↔
      ¬∃ event start stop, FirstDeclaration line.toList event start stop ∧
        BadEventName (slice line.toList start stop)) ∧
    ∀ event start stop, FirstDeclaration line.toList event start stop →
      BadEventName (slice line.toList start stop) →
      ∃ place, place ≤ start ∧ slice line.toList start stop <+: line.toList.drop place ∧
        (∀ k < place, ¬slice line.toList start stop <+: line.toList.drop k) ∧
        invalidEventNameRule.run line number =
          .ok [Catalog.invalidEventName.diagnostic
            (.stretch number place (slice line.toList start stop).length)] := by
  constructor
  · refine (tidy_invalidEventName.report_eq_nil_iff line number).trans ?_
    constructor
    · rintro hnone ⟨event, start, stop, hfirst, hname⟩
      obtain ⟨place, hplace, -⟩ := exists_first_place line.toList start stop
      exact hnone _ (invalidEventName_eq_some_iff.2
        ⟨event, start, stop, place, hfirst, hname, hplace, rfl⟩)
    · intro hnone f hf
      obtain ⟨event, start, stop, place, hfirst, hname, -⟩ := invalidEventName_eq_some_iff.1 hf
      exact hnone ⟨event, start, stop, hfirst, hname⟩
  · intro event start stop hfirst hname
    obtain ⟨place, hplace, hle, hhere, hleast⟩ := exists_first_place line.toList start stop
    have hfinding := invalidEventName_eq_some_iff.2
      ⟨event, start, stop, place, hfirst, hname, hplace, rfl⟩
    have hreport := tidy_invalidEventName.report_of_eq_some hfinding number
    rw [Finding.range_onName] at hreport
    exact ⟨place, hle, hhere, hleast, hreport⟩

example : invalidEventNameRule.run "events_Bad: event Bad" 0 =
    .ok [Catalog.invalidEventName.diagnostic (.stretch 0 7 3)] := by
  rfl

end Edl.Lint
