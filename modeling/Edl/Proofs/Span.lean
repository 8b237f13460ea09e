/-
Places in a line, and the runs of characters around them.

The recognisers read a line from some place on: they skip blanks, take a word, go on behind it.
What they see is a *span*, the characters from one place up to the first that is of another kind.
Here spans are described by their two ends alone, so that a statement about a line can speak of
places in it, and the recognisers are tied to that description once and for all.

Main definitions:

* `Edl.Text.At` — the character at a place is of some kind;
* `Edl.Text.slice` — the characters between two places;
* `Edl.Text.Span` — from one place up to the first character that is not of a kind;
* `Edl.Text.Run` — a span of word characters that cannot be extended to either side.

Main results:

* `Edl.Text.Span.takeWhile_drop`, `Edl.Text.Span.dropWhile_drop` — reading on from a place;
* `Edl.Text.Run.eq_of_overlap` — runs that overlap are the same;
* `Edl.Text.exists_run` — a word character lies in some run;
* `Edl.Text.firstMatch_eq_some_iff_drop`, `Edl.Text.firstMatch_eq_some_iff_slice` — a search finds
  the least place with an answer.
-/

import Edl.Text.Blank
import Edl.Text.Search

set_option relaxedAutoImplicit false
set_option autoImplicit false

namespace Edl.Text

/-! ### Places -/

/-- The text has a character at place `k`, and it is of the given kind. -/
def At (kind : Char → Bool) (text : List Char) (k : Nat) : Prop :=
  ∃ c, text[k]? = some c ∧ kind c = true

/-- The characters from `start` up to, and not including, `stop`. -/
def slice (text : List Char) (start stop : Nat) : List Char :=
  (text.take stop).drop start

section

variable {kind other : Char → Bool} {text : List Char} {c : Char} {i j k : Nat}

theorem at_iff_of_getElem? (h : text[k]? = some c) : At kind text k ↔ kind c = true := by
  constructor
  · rintro ⟨d, hd, hkind⟩
    obtain rfl := Option.some.inj (h.symm.trans hd)
    exact hkind
  · exact fun hkind => ⟨c, h, hkind⟩

@[simp] theorem at_drop : At kind (text.drop i) k ↔ At kind text (i + k) := by
  simp only [At, List.getElem?_drop]

/-- A character of one kind is not of another that excludes it. -/
theorem At.not_at (h : At kind text k) (hkinds : ∀ c, kind c = true → other c = false) :
    ¬At other text k := by
  obtain ⟨c, hc, hkind⟩ := h
  rw [at_iff_of_getElem? hc, hkinds c hkind]
  exact Bool.false_ne_true

theorem At.lt_length (h : At kind text k) : k < text.length := by
  obtain ⟨c, hc, -⟩ := h
  exact (List.getElem?_eq_some_iff.1 hc).1

theorem slice_eq_take_drop (text : List Char) (i j : Nat) :
    slice text i j = (text.drop i).take (j - i) :=
  List.drop_take

/-- A slice stands where it was taken from. -/
theorem slice_prefix_drop (text : List Char) (i j : Nat) : slice text i j <+: text.drop i := by
  rw [slice_eq_take_drop]
  exact List.take_prefix _ _

/-- What stands at a place is a slice from there on. -/
theorem slice_of_prefix_drop {part : List Char} (h : part <+: text.drop i) :
    slice text i (i + part.length) = part := by
  rw [slice_eq_take_drop, Nat.add_sub_cancel_left]
  exact (List.prefix_iff_eq_take.1 h).symm

/-- The characters of a slice are those at its places. -/
theorem mem_slice_iff : c ∈ slice text i j ↔ ∃ k, i ≤ k ∧ k < j ∧ text[k]? = some c := by
  rw [slice, List.mem_iff_getElem?]
  constructor
  · rintro ⟨d, hd⟩
    rw [List.getElem?_drop, List.getElem?_take] at hd
    split at hd
    · next hlt => exact ⟨i + d, Nat.le_add_right i d, hlt, hd⟩
    · cases hd
  · rintro ⟨k, hle, hlt, hk⟩
    refine ⟨k - i, ?_⟩
    rw [List.getElem?_drop, List.getElem?_take, Nat.add_sub_cancel' hle, if_pos hlt]
    exact hk

/-- The text from a place on, by the character there. -/
theorem drop_eq_cons_iff {rest : List Char} :
    text.drop k = c :: rest ↔ text[k]? = some c ∧ rest = text.drop (k + 1) := by
  constructor
  · intro h
    have hhead := congrArg List.head? h
    have htail := congrArg List.tail h
    rw [List.head?_drop] at hhead
    rw [List.tail_drop] at htail
    exact ⟨hhead, htail.symm⟩
  · rintro ⟨hk, rfl⟩
    obtain ⟨hlt, rfl⟩ := List.getElem?_eq_some_iff.1 hk
    exact List.drop_eq_getElem_cons hlt

/-- A text that stands at a place stands there character by character. -/
theorem cons_prefix_drop_iff {head : List Char} :
    c :: head <+: text.drop k ↔ text[k]? = some c ∧ head <+: text.drop (k + 1) := by
  constructor
  · rintro ⟨rest, hrest⟩
    obtain ⟨hc, htail⟩ := drop_eq_cons_iff.1 hrest.symm
    exact ⟨hc, rest, htail⟩
  · rintro ⟨hc, rest, htail⟩
    exact ⟨rest, (drop_eq_cons_iff.2 ⟨hc, htail⟩).symm⟩

/-- Reading a fixed text at a place leads behind it. -/
theorem after?_drop_eq_some_iff {head rest : List Char} :
    after? head (text.drop k) = some rest ↔
      head <+: text.drop k ∧ rest = text.drop (k + head.length) := by
  rw [after?_eq_some_iff, ← List.drop_drop]
  constructor
  · intro h
    rw [h]
    exact ⟨List.prefix_append head rest, List.drop_left.symm⟩
  · rintro ⟨⟨tail, htail⟩, rfl⟩
    rw [← htail, List.drop_left]

end

/-! ### Spans -/

/-- All characters from `start` up to `stop` are of the kind, and there is none of it at `stop`. -/
structure Span (kind : Char → Bool) (text : List Char) (start stop : Nat) : Prop where
  le : start ≤ stop
  inside : ∀ k, start ≤ k → k < stop → At kind text k
  closed : ¬At kind text stop

section

variable {kind : Char → Bool} {text : List Char} {i j k n : Nat}

/-- In the longest run at the start of a text everything is of the kind, and behind it nothing. -/
theorem span_takeWhile (kind : Char → Bool) (text : List Char) :
    Span kind text 0 (text.takeWhile kind).length := by
  refine ⟨Nat.zero_le _, ?_, ?_⟩
  · intro k _ hk
    induction text generalizing k with
    | nil => cases hk
    | cons c text ih =>
        rw [List.takeWhile_cons] at hk
        split at hk
        · next hc =>
            cases k with
            | zero => exact ⟨c, rfl, hc⟩
            | succ k => exact ih k (Nat.zero_le k) (Nat.lt_of_succ_lt_succ hk)
        · cases hk
  · induction text with
    | nil => exact fun h => absurd h.lt_length (Nat.not_lt_zero _)
    | cons c text ih =>
        rw [List.takeWhile_cons]
        split
        · exact ih
        · next hc => exact fun h => hc ((at_iff_of_getElem? rfl).1 h)

/-- From every place on there is a span. -/
theorem exists_span (kind : Char → Bool) (text : List Char) (i : Nat) :
    ∃ n, Span kind text i n ∧ n = i + ((text.drop i).takeWhile kind).length := by
  obtain ⟨-, hinside, hclosed⟩ := span_takeWhile kind (text.drop i)
  refine ⟨_, ⟨Nat.le_add_right i _, fun k hik hk => ?_, ?_⟩, rfl⟩
  · have hat := hinside (k - i) (Nat.zero_le _) (by omega)
    rwa [at_drop, Nat.add_sub_cancel' hik] at hat
  · rwa [at_drop] at hclosed

/-- A span is determined by where it starts. -/
theorem Span.unique (h : Span kind text i j) (h' : Span kind text i k) : j = k := by
  rcases Nat.lt_trichotomy j k with hlt | heq | hlt
  · exact absurd (h'.inside j h.le hlt) h.closed
  · exact heq
  · exact absurd (h.inside k h'.le hlt) h'.closed

/-- A span from a later place of a span ends where that one does. -/
theorem Span.mono (h : Span kind text i n) (hij : i ≤ j) (hjn : j ≤ n) : Span kind text j n :=
  ⟨hjn, fun k hjk hkn => h.inside k (Nat.le_trans hij hjk) hkn, h.closed⟩

/-- One more character in front. -/
theorem Span.extend (h : Span kind text (i + 1) n) (hi : At kind text i) : Span kind text i n := by
  refine ⟨Nat.le_of_succ_le h.le, fun k hik hkn => ?_, h.closed⟩
  rcases Nat.eq_or_lt_of_le hik with rfl | hlt
  · exact hi
  · exact h.inside k hlt hkn

theorem Span.eq_add_length (h : Span kind text i n) :
    n = i + ((text.drop i).takeWhile kind).length := by
  obtain ⟨m, hspan, hm⟩ := exists_span kind text i
  rw [h.unique hspan, hm]

/-- Taking characters of a kind from the start of a span gives the span. -/
theorem Span.takeWhile_drop (h : Span kind text i n) :
    (text.drop i).takeWhile kind = slice text i n := by
  rw [slice_eq_take_drop, h.eq_add_length, Nat.add_sub_cancel_left]
  exact List.prefix_iff_eq_take.1 (List.takeWhile_prefix kind)

/-- Dropping characters of a kind from the start of a span leads to its end. -/
theorem Span.dropWhile_drop (h : Span kind text i n) :
    (text.drop i).dropWhile kind = text.drop n := by
  rw [h.eq_add_length, ← List.drop_drop]
  calc (text.drop i).dropWhile kind
      = ((text.drop i).takeWhile kind ++ (text.drop i).dropWhile kind).drop
          ((text.drop i).takeWhile kind).length := List.drop_left.symm
    _ = (text.drop i).drop ((text.drop i).takeWhile kind).length := by
        rw [List.takeWhile_append_dropWhile]

theorem Span.trimStart_drop (h : Span isBlank text i n) : trimStart (text.drop i) = text.drop n :=
  h.dropWhile_drop

theorem Span.word_drop (h : Span isWordChar text i n) : word (text.drop i) = slice text i n :=
  h.takeWhile_drop

theorem Span.length_slice (h : Span kind text i n) : (slice text i n).length = n - i := by
  rw [← h.takeWhile_drop, h.eq_add_length, Nat.add_sub_cancel_left]

theorem Span.slice_eq_nil_iff (h : Span kind text i n) : slice text i n = [] ↔ n = i := by
  have hle := h.le
  rw [← List.length_eq_zero_iff, h.length_slice]
  omega

/-- There is a character of the kind where a span that is not empty starts. -/
theorem Span.lt_iff_at (h : Span kind text i n) : i < n ↔ At kind text i := by
  constructor
  · exact fun hlt => h.inside i (Nat.le_refl i) hlt
  · intro hat
    refine Nat.lt_of_le_of_ne h.le ?_
    rintro rfl
    exact h.closed hat

end

/-! ### Runs of word characters -/

/-- The characters from `start` up to `stop` are a longest run of word characters. -/
structure Run (text : List Char) (start stop : Nat) : Prop where
  span : Span isWordChar text start stop
  nonempty : start < stop
  opened : ∀ k, k + 1 = start → ¬At isWordChar text k

section

variable {text : List Char} {i j k n m : Nat}

/-- From a word character one can go left to where its run starts. -/
theorem exists_run_start (h : At isWordChar text k) :
    ∃ i ≤ k, (∀ j, i ≤ j → j ≤ k → At isWordChar text j) ∧
      ∀ j, j + 1 = i → ¬At isWordChar text j := by
  induction k with
  | zero =>
      refine ⟨0, Nat.le_refl 0, fun j _ hj => ?_, fun j hj => absurd hj (Nat.succ_ne_zero j)⟩
      rwa [Nat.le_zero.1 hj]
  | succ k ih =>
      by_cases hk : At isWordChar text k
      · obtain ⟨i, hik, hinside, hopened⟩ := ih hk
        refine ⟨i, Nat.le_succ_of_le hik, fun j hij hj => ?_, hopened⟩
        rcases Nat.eq_or_lt_of_le hj with rfl | hlt
        · exact h
        · exact hinside j hij (Nat.le_of_lt_succ hlt)
      · refine ⟨k + 1, Nat.le_refl _, fun j hkj hjk => ?_, fun j hj => ?_⟩
        · rwa [Nat.le_antisymm hjk hkj]
        · rwa [Nat.succ.inj hj]

/-- A word character lies in some run. -/
theorem exists_run (h : At isWordChar text k) : ∃ i n, Run text i n ∧ i ≤ k ∧ k < n := by
  obtain ⟨i, hik, hinside, hopened⟩ := exists_run_start h
  obtain ⟨n, hspan, -⟩ := exists_span isWordChar text k
  have hkn : k < n := hspan.lt_iff_at.2 h
  refine ⟨i, n, ⟨⟨by omega, fun j hij hjn => ?_, hspan.closed⟩, by omega, hopened⟩, hik, hkn⟩
  rcases Nat.lt_or_ge k j with hlt | hge
  · exact hspan.inside j (Nat.le_of_lt hlt) hjn
  · exact hinside j hij hge

/-- A run that starts before the end of another starts no later than it. -/
theorem Run.start_le (h : Run text i n) (h' : Run text j m) (hjn : j < n) : j ≤ i := by
  refine Nat.le_of_not_lt fun hij => ?_
  obtain ⟨k, rfl⟩ := Nat.exists_eq_succ_of_ne_zero (Nat.ne_zero_of_lt hij)
  exact h'.opened k rfl (h.span.inside k (Nat.le_of_lt_succ hij) (Nat.lt_of_succ_lt hjn))

/-- Runs that overlap are the same. -/
theorem Run.eq_of_overlap (h : Run text i n) (h' : Run text j m) (hjn : j < n) (him : i < m) :
    i = j ∧ n = m := by
  obtain rfl := Nat.le_antisymm (h'.start_le h him) (h.start_le h' hjn)
  exact ⟨rfl, h.span.unique h'.span⟩

end

/-! ### Searching -/

section

variable {α : Type} {recognise : List Char → Option α} {text : List Char} {answer : α}

/-- A search gives the answer at the least place that has one. -/
theorem firstMatch_eq_some_iff_drop :
    firstMatch recognise text = some answer ↔
      ∃ i, recognise (text.drop i) = some answer ∧ ∀ j < i, recognise (text.drop j) = none := by
  induction text with
  | nil =>
      simp only [firstMatch, List.drop_nil]
      constructor
      · exact fun h => ⟨0, h, by simp⟩
      · rintro ⟨-, h, -⟩
        exact h
  | cons c text ih =>
      rw [firstMatch]
      cases hhere : recognise (c :: text) with
      | some found =>
          constructor
          · rintro ⟨⟩
            exact ⟨0, hhere, by simp⟩
          · rintro ⟨i, h, hleast⟩
            cases i with
            | zero => rw [← h, List.drop_zero, hhere]
            | succ i => cases hhere.symm.trans (hleast 0 (Nat.succ_pos i))
      | none =>
          refine ih.trans ⟨?_, ?_⟩
          · rintro ⟨i, h, hleast⟩
            refine ⟨i + 1, h, fun j hj => ?_⟩
            cases j with
            | zero => exact hhere
            | succ j => exact hleast j (Nat.lt_of_succ_lt_succ hj)
          · rintro ⟨i, h, hleast⟩
            cases i with
            | zero => cases hhere.symm.trans h
            | succ i => exact ⟨i, h, fun j hj => hleast (j + 1) (Nat.succ_lt_succ hj)⟩

/-- A search fails when there is no answer at any place. -/
theorem firstMatch_eq_none_iff_drop :
    firstMatch recognise text = none ↔ ∀ i, recognise (text.drop i) = none := by
  induction text with
  | nil => simp [firstMatch]
  | cons c text ih =>
      rw [firstMatch]
      cases hhere : recognise (c :: text) with
      | some found =>
          refine iff_of_false (by simp) fun h => ?_
          cases hhere.symm.trans (h 0)
      | none =>
          refine ih.trans ⟨fun h i => ?_, fun h i => h (i + 1)⟩
          cases i with
          | zero => exact hhere
          | succ i => exact h i

/-- A search for names: when each answer is the word between two places of the text, the search
gives the one that is read furthest left. -/
theorem firstMatch_eq_some_iff_slice {recognise : List Char → Option (List Char)}
    {name : List Char} {reads : Nat → Nat → Nat → Prop}
    (h : ∀ i name, recognise (text.drop i) = some name ↔
      ∃ start stop, reads i start stop ∧ name = slice text start stop) :
    firstMatch recognise text = some name ↔
      ∃ i start stop, (reads i start stop ∧ ∀ j < i, ∀ s e, ¬reads j s e) ∧
        name = slice text start stop := by
  have hnone : ∀ j, recognise (text.drop j) = none ↔ ∀ s e, ¬reads j s e := by
    intro j
    rw [Option.eq_none_iff_forall_ne_some]
    constructor
    · exact fun hno s e hreads => hno _ ((h j _).2 ⟨s, e, hreads, rfl⟩)
    · intro hno found hfound
      obtain ⟨s, e, hreads, -⟩ := (h j found).1 hfound
      exact hno s e hreads
  rw [firstMatch_eq_some_iff_drop]
  constructor
  · rintro ⟨i, hfound, hleast⟩
    obtain ⟨start, stop, hreads, rfl⟩ := (h i name).1 hfound
    exact ⟨i, start, stop, ⟨hreads, fun j hj => (hnone j).1 (hleast j hj)⟩, rfl⟩
  · rintro ⟨i, start, stop, ⟨hreads, hleast⟩, rfl⟩
    exact ⟨i, (h i _).2 ⟨start, stop, hreads, rfl⟩, fun j hj => (hnone j).2 (hleast j hj)⟩

end

end Edl.Text
