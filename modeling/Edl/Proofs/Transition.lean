/-
Which two states a transition is read from.

The check of transitions tries every place of a line in turn, and from each it reads a word, an
arrow and another word, with blanks in between.  What it compares can be said without that search.
An arrow is *complete* when the nearest visible characters on both of its sides are word characters,
and the check compares the whole words there, for the first complete arrow of the line.  That no
part of a word is ever compared has two reasons.  On the right the word is read to its end.  On the
left the search goes from left to right, so that of all places from which an arrow can be read it
meets the start of the word first; and words further left belong to arrows further left.

Main definitions:

* `Edl.Lint.Arrow` — a complete arrow and the characters next to it;
* `Edl.Lint.FirstArrow` — the first complete arrow of a line;
* `Edl.Lint.LoopsBack` — the words around the first complete arrow are the same.

Main results:

* `Edl.Lint.transition?_drop_eq_some_iff` — what is read from a place;
* `Edl.Lint.firstMatch_transition?_eq_some_iff` — what is read from a line;
* `Edl.Lint.self_transition_compares_whole_states` — **the report on a line**.
-/

import Edl.Proofs.Padding
import Edl.Proofs.Span
import Edl.Proofs.Stretch

set_option relaxedAutoImplicit false
set_option autoImplicit false

namespace Edl.Lint

open Text

/-! ### Complete arrows -/

/-- There is an arrow at `arrow`, the nearest visible character before it is at `left`, the nearest
one behind it at `right`, and both are word characters. -/
structure Arrow (line : List Char) (arrow left right : Nat) : Prop where
  sign : ['-', '>'] <+: line.drop arrow
  before : Span isBlank line (left + 1) arrow
  left_word : At isWordChar line left
  behind : Span isBlank line (arrow + 2) right
  right_word : At isWordChar line right

/-- A complete arrow such that there is none further left. -/
def FirstArrow (line : List Char) (arrow left right : Nat) : Prop :=
  Arrow line arrow left right ∧ ∀ a < arrow, ∀ l r, ¬Arrow line a l r

/-- The word that ends at the left of the first complete arrow is the word that starts at its
right. -/
def LoopsBack (line : List Char) : Prop :=
  ∃ arrow left right first last, FirstArrow line arrow left right ∧
    Run line first (left + 1) ∧ Run line right last ∧
    slice line first (left + 1) = slice line right last

section

variable {line : List Char} {arrow left right left' right' first last i : Nat}

theorem not_at_isWordChar_of_isBlank {k : Nat} (h : At isBlank line k) : ¬At isWordChar line k :=
  h.not_at fun _ hc => isWordChar_of_isBlank hc

namespace Arrow

/-- Nothing of an arrow is a word character. -/
theorem not_word (h : Arrow line arrow left right) :
    ¬At isWordChar line arrow ∧ ¬At isWordChar line (arrow + 1) := by
  obtain ⟨hdash, hrest⟩ := cons_prefix_drop_iff.1 h.sign
  obtain ⟨hhead, -⟩ := cons_prefix_drop_iff.1 hrest
  rw [at_iff_of_getElem? hdash, at_iff_of_getElem? hhead]
  decide

/-- The word on the left ends where its nearest character says. -/
theorem left_closed (h : Arrow line arrow left right) : ¬At isWordChar line (left + 1) := by
  rcases Nat.eq_or_lt_of_le h.before.le with heq | hlt
  · rw [heq]
    exact h.not_word.1
  · exact not_at_isWordChar_of_isBlank (h.before.inside (left + 1) (Nat.le_refl _) hlt)

/-- The word on the right starts where its nearest character says. -/
theorem right_opened (h : Arrow line arrow left right) :
    ∀ k, k + 1 = right → ¬At isWordChar line k := by
  rintro k rfl
  rcases Nat.eq_or_lt_of_le h.behind.le with heq | hlt
  · rw [← Nat.succ.inj heq]
    exact h.not_word.2
  · exact not_at_isWordChar_of_isBlank
      (h.behind.inside k (Nat.le_of_lt_succ hlt) (Nat.lt_succ_self k))

/-- The nearest characters of an arrow are determined by the arrow. -/
theorem unique (h : Arrow line arrow left right) (h' : Arrow line arrow left' right') :
    left = left' ∧ right = right' := by
  have hle := h.before.le
  have hle' := h'.before.le
  refine ⟨?_, h.behind.unique h'.behind⟩
  rcases Nat.lt_trichotomy left left' with hlt | heq | hlt
  · exact absurd h'.left_word
      (not_at_isWordChar_of_isBlank (h.before.inside left' hlt (by omega)))
  · exact heq
  · exact absurd h.left_word
      (not_at_isWordChar_of_isBlank (h'.before.inside left hlt (by omega)))

/-- The words around an arrow. -/
theorem exists_runs (h : Arrow line arrow left right) :
    ∃ first last, Run line first (left + 1) ∧ Run line right last := by
  obtain ⟨first, stop, run, hfirst, hstop⟩ := exists_run h.left_word
  obtain ⟨last, hspan, -⟩ := exists_span isWordChar line right
  obtain rfl : stop = left + 1 := by
    refine Nat.le_antisymm (Nat.le_of_not_lt fun hlt => ?_) hstop
    exact h.left_closed (run.span.inside (left + 1) (by omega) hlt)
  exact ⟨first, last, run, hspan, hspan.lt_iff_at.2 h.right_word, h.right_opened⟩

end Arrow

/-! ### Reading a transition -/

/-- What is read from a place, by the ends of the parts. -/
theorem transition?_drop {j k m n : Nat} {states : List Char × List Char}
    (hword : Span isWordChar line i j) (hgap : Span isBlank line j k)
    (hgap' : Span isBlank line (k + 2) m) (hword' : Span isWordChar line m n) :
    transition? (line.drop i) = some states ↔
      i < j ∧ ['-', '>'] <+: line.drop k ∧ m < n ∧ states = (slice line i j, slice line m n) := by
  have hle := hword.le
  have hle' := hword'.le
  rw [transition?, hword.word_drop, hword.dropWhile_drop, hgap.trimStart_drop]
  by_cases hempty : slice line i j = []
  · rw [if_pos hempty]
    have heq := hword.slice_eq_nil_iff.1 hempty
    exact iff_of_false (by simp) fun h => absurd h.1 (by omega)
  · rw [if_neg hempty]
    have hne := mt hword.slice_eq_nil_iff.2 hempty
    cases hsign : after? ['-', '>'] (line.drop k) with
    | none =>
        refine iff_of_false (by simp) fun h => ?_
        have hsome := after?_drop_eq_some_iff.2 ⟨h.2.1, rfl⟩
        rw [hsign] at hsome
        cases hsome
    | some rest =>
        obtain ⟨harrow, rfl⟩ := after?_drop_eq_some_iff.1 hsign
        dsimp only
        rw [List.length_cons, List.length_singleton, hgap'.trimStart_drop, hword'.word_drop]
        by_cases hempty' : slice line m n = []
        · rw [if_pos hempty']
          have heq' := hword'.slice_eq_nil_iff.1 hempty'
          exact iff_of_false (by simp) fun h => absurd h.2.2.1 (by omega)
        · rw [if_neg hempty', Option.some_inj]
          have hne' := mt hword'.slice_eq_nil_iff.2 hempty'
          constructor
          · rintro rfl
            exact ⟨by omega, harrow, by omega, rfl⟩
          · rintro ⟨-, -, -, rfl⟩
            rfl

/-- From a place one reads the rest of the word there and the word behind the arrow that follows. -/
theorem transition?_drop_eq_some_iff {states : List Char × List Char} :
    transition? (line.drop i) = some states ↔
      ∃ arrow left right last, Arrow line arrow left right ∧ i ≤ left ∧
        Span isWordChar line i (left + 1) ∧ Span isWordChar line right last ∧
        states = (slice line i (left + 1), slice line right last) := by
  obtain ⟨j, hword, -⟩ := exists_span isWordChar line i
  obtain ⟨k, hgap, -⟩ := exists_span isBlank line j
  obtain ⟨m, hgap', -⟩ := exists_span isBlank line (k + 2)
  obtain ⟨n, hword', -⟩ := exists_span isWordChar line m
  rw [transition?_drop hword hgap hgap' hword']
  constructor
  · rintro ⟨hij, hsign, hmn, rfl⟩
    obtain ⟨left, rfl⟩ := Nat.exists_eq_succ_of_ne_zero (Nat.ne_zero_of_lt hij)
    have hleft := Nat.le_of_lt_succ hij
    exact ⟨k, left, m, n, ⟨hsign, hgap, hword.inside left hleft (Nat.lt_succ_self left), hgap',
      hword'.lt_iff_at.1 hmn⟩, hleft, hword, hword', rfl⟩
  · rintro ⟨arrow, left, right, last, harrow, hleft, hspan, hspan', rfl⟩
    obtain rfl := hword.unique hspan
    obtain rfl := hgap.unique harrow.before
    obtain rfl := hgap'.unique harrow.behind
    obtain rfl := hword'.unique hspan'
    exact ⟨Nat.lt_succ_of_le hleft, harrow.sign, hword'.lt_iff_at.2 harrow.right_word, rfl⟩

/-! ### The first transition of a line -/

/-- From the start of the word on the left of an arrow a transition is read. -/
theorem transition?_drop_of_run (harrow : Arrow line arrow left right)
    (hrun : Run line first (left + 1)) (hrun' : Run line right last) :
    transition? (line.drop first) = some (slice line first (left + 1), slice line right last) :=
  transition?_drop_eq_some_iff.2 ⟨arrow, left, right, last, harrow, Nat.le_of_lt_succ hrun.nonempty,
    hrun.span, hrun'.span, rfl⟩

/-- The search stops at the start of a word, because one character further left would do as well. -/
theorem run_of_least (harrow : Arrow line arrow left right) (hleft : i ≤ left)
    (hspan : Span isWordChar line i (left + 1))
    (hleast : ∀ j < i, transition? (line.drop j) = none) : Run line i (left + 1) := by
  refine ⟨hspan, Nat.lt_succ_of_le hleft, ?_⟩
  rintro k rfl hk
  obtain ⟨last, hspan', -⟩ := exists_span isWordChar line right
  have hsome := transition?_drop_eq_some_iff.2
    ⟨arrow, left, right, last, harrow, Nat.le_of_succ_le hleft, hspan.extend hk, hspan', rfl⟩
  rw [hleast k (Nat.lt_succ_self k)] at hsome
  cases hsome

/-- An arrow further left would have its word further left. -/
theorem firstArrow_of_least (harrow : Arrow line arrow left right) (hrun : Run line i (left + 1))
    (hleast : ∀ j < i, transition? (line.drop j) = none) : FirstArrow line arrow left right := by
  refine ⟨harrow, fun arrow' hlt left' right' harrow' => ?_⟩
  obtain ⟨first, last, hrun', hrun''⟩ := harrow'.exists_runs
  have hfirst : i ≤ first := by
    refine Nat.le_of_not_lt fun hbefore => ?_
    have hsome := transition?_drop_of_run harrow' hrun' hrun''
    rw [hleast first hbefore] at hsome
    cases hsome
  have hle := harrow'.before.le
  have hnonempty := hrun'.nonempty
  -- between the word and its arrow there are only blanks, so the other word is not there
  have hleft' : left' ≤ left := by
    refine Nat.le_of_not_lt fun hafter => ?_
    exact not_at_isWordChar_of_isBlank (harrow.before.inside left' hafter (by omega))
      harrow'.left_word
  -- hence both words are the same, and so are the arrows
  obtain ⟨-, hends⟩ := hrun.eq_of_overlap hrun' (by omega) (by omega)
  have hbefore := harrow'.before
  rw [← hends] at hbefore
  exact absurd (hbefore.unique harrow.before) (Nat.ne_of_lt hlt)

/-- What is read from a line is read at its first complete arrow. -/
theorem exists_firstArrow_of_firstMatch {states : List Char × List Char}
    (h : firstMatch transition? line = some states) :
    ∃ arrow left right first last, FirstArrow line arrow left right ∧
      Run line first (left + 1) ∧ Run line right last ∧
      states = (slice line first (left + 1), slice line right last) := by
  obtain ⟨i, hi, hleast⟩ := firstMatch_eq_some_iff_drop.1 h
  obtain ⟨arrow, left, right, last, harrow, hleft, hspan, hspan', rfl⟩ :=
    transition?_drop_eq_some_iff.1 hi
  have hrun := run_of_least harrow hleft hspan hleast
  exact ⟨arrow, left, right, i, last, firstArrow_of_least harrow hrun hleast, hrun,
    ⟨hspan', hspan'.lt_iff_at.2 harrow.right_word, harrow.right_opened⟩, rfl⟩

/-- There is only one first arrow. -/
theorem FirstArrow.unique {arrow' : Nat} (h : FirstArrow line arrow left right)
    (h' : FirstArrow line arrow' left' right') : left = left' ∧ right = right' := by
  rcases Nat.lt_trichotomy arrow arrow' with hlt | rfl | hlt
  · exact absurd h.1 (h'.2 arrow hlt left right)
  · exact h.1.unique h'.1
  · exact absurd h'.1 (h.2 arrow' hlt left' right')

/-- A line is read at its first complete arrow, and the words around it are read whole. -/
theorem firstMatch_transition?_eq_some_iff {states : List Char × List Char} :
    firstMatch transition? line = some states ↔
      ∃ arrow left right first last, FirstArrow line arrow left right ∧
        Run line first (left + 1) ∧ Run line right last ∧
        states = (slice line first (left + 1), slice line right last) := by
  refine ⟨exists_firstArrow_of_firstMatch, ?_⟩
  rintro ⟨arrow, left, right, first, last, hfirst, hrun, hrun', rfl⟩
  cases hfound : firstMatch transition? line with
  | none =>
      have hsome := transition?_drop_of_run hfirst.1 hrun hrun'
      rw [firstMatch_eq_none_iff_drop.1 hfound first] at hsome
      cases hsome
  | some found =>
      -- something is found, and then it is at the first arrow, with the words around it
      obtain ⟨arrow', left', right', first', last', hfirst', hleft, hright, rfl⟩ :=
        exists_firstArrow_of_firstMatch hfound
      obtain ⟨rfl, rfl⟩ := hfirst'.unique hfirst
      obtain ⟨rfl, -⟩ := hleft.eq_of_overlap hrun hrun.nonempty hleft.nonempty
      obtain rfl := hright.span.unique hrun'.span
      rfl

/-- A line has a finding when its first transition loops back. -/
theorem selfTransition_eq_some_iff {f : Finding} :
    selfTransition line = .ok (some f) ↔
      LoopsBack line ∧ f = .onAll Catalog.selfTransition line := by
  unfold selfTransition
  cases hfound : firstMatch transition? line with
  | none =>
      refine iff_of_false (by simp) ?_
      rintro ⟨⟨arrow, left, right, first, last, hfirst, hrun, hrun', -⟩, -⟩
      have hsome := firstMatch_transition?_eq_some_iff.2
        ⟨arrow, left, right, first, last, hfirst, hrun, hrun', rfl⟩
      rw [hfound] at hsome
      cases hsome
  | some states =>
      have hloops : LoopsBack line ↔ states.1 = states.2 := by
        constructor
        · rintro ⟨arrow, left, right, first, last, hfirst, hrun, hrun', heq⟩
          have hsome := firstMatch_transition?_eq_some_iff.2
            ⟨arrow, left, right, first, last, hfirst, hrun, hrun', rfl⟩
          rw [hfound] at hsome
          obtain rfl := Option.some.inj hsome
          exact heq
        · intro heq
          obtain ⟨arrow, left, right, first, last, hfirst, hrun, hrun', rfl⟩ :=
            firstMatch_transition?_eq_some_iff.1 hfound
          exact ⟨arrow, left, right, first, last, hfirst, hrun, hrun', heq⟩
      rw [hloops]
      dsimp only
      split
      · next heq => simp [heq, eq_comm]
      · next hne => simp [hne]

end

/-- **The check of transitions compares whole words around the first complete arrow.**  It reports
on a line if and only if the line has a complete arrow and the words around the first of them are
the same; there is then one finding, on the whole line, and otherwise none.  What it compares are
always the longest runs of word characters on both sides of that arrow. -/
theorem self_transition_compares_whole_states (line : String) (number : Nat) :
    (LoopsBack line.toList ↔ selfTransitionRule.run line number =
      .ok [Catalog.selfTransition.diagnostic (.stretch number 0 line.length)]) ∧
    (¬LoopsBack line.toList ↔ selfTransitionRule.run line number = .ok []) ∧
    ∀ arrow left right, FirstArrow line.toList arrow left right →
      ∃ first last, Run line.toList first (left + 1) ∧ Run line.toList right last ∧
        firstMatch transition? line.toList =
          some (slice line.toList first (left + 1), slice line.toList right last) := by
  have hrange : (Finding.onAll Catalog.selfTransition line.toList).range number =
      .stretch number 0 line.length := by
    simp only [Finding.range, Finding.onAll, String.length_toList, Int.sub_zero, Int.toNat_natCast,
      Int.toNat_zero]
  obtain ⟨hloops, hstays⟩ :=
    tidy_selfTransition.report_iff (fun _ => selfTransition_eq_some_iff) number
  rw [hrange] at hloops
  refine ⟨hloops, hstays, fun arrow left right hfirst => ?_⟩
  obtain ⟨first, last, hrun, hrun'⟩ := hfirst.1.exists_runs
  exact ⟨first, last, hrun, hrun', firstMatch_transition?_eq_some_iff.2
    ⟨arrow, left, right, first, last, hfirst, hrun, hrun', rfl⟩⟩

example : selfTransitionRule.run "a -> ab; ab -> ab" 0 = .ok [] := by
  rfl

end Edl.Lint
