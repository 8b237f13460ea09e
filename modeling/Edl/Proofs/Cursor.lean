/-
The token under the cursor.

A cursor stands between two characters.  It is on the token that it is inside of or at the end of;
where there is none, it is on the token that starts right behind it.  Since tokens do not overlap,
there is at most one token of the first sort, and the two rules together come to taking the first
token that the cursor touches.

An editor asks for the token under any position, so the answer has to exist for all of them.  Every
range is made, and every line looked up, with a check that can refuse it, and the search stops at
the first token behind the cursor; no check ever refuses, and no token is missed.

Main definitions:

* `Edl.Hover.tokenAt?` — the first token that a cursor touches;
* `Edl.Hover.UnderCursor` — the token that a cursor is on.

Main results:

* `Edl.Hover.tokenAt?_eq_some_iff_underCursor` — the two are the same;
* `Edl.Hover.exists_touched` — the search never fails, and finds the first one;
* `Edl.Hover.exists_wordRange?`, `Edl.Hover.exists_at?` — what is under a position;
* `Edl.Hover.hover_explains_the_token_under_the_cursor` — **positions and tokens, and the
  explanations that go with them**.
-/

import Edl.Proofs.Token

set_option relaxedAutoImplicit false
set_option autoImplicit false

namespace Edl.Hover

open Text

/-! ### The first token that a position touches -/

/-- In a list ordered by its first components, the first item with a property is the least one. -/
theorem find?_eq_some_iff_least {items : List (Nat × Nat)} {p : Nat × Nat → Bool} {t : Nat × Nat}
    (h : items.Pairwise fun t u => t.1 < u.1) :
    items.find? p = some t ↔ t ∈ items ∧ p t = true ∧ ∀ u ∈ items, p u = true → t.1 ≤ u.1 := by
  induction items with
  | nil => simp
  | cons item items ih =>
      obtain ⟨hfirst, hrest⟩ := List.pairwise_cons.1 h
      cases hp : p item with
      | true =>
          rw [List.find?_cons_of_pos hp, Option.some_inj]
          constructor
          · rintro rfl
            refine ⟨List.mem_cons_self .., hp, List.forall_mem_cons.2 ⟨fun _ => Nat.le_refl _, ?_⟩⟩
            exact fun u hu _ => Nat.le_of_lt (hfirst u hu)
          · rintro ⟨hmem, -, hleast⟩
            rcases List.mem_cons.1 hmem with rfl | hlater
            · rfl
            · exact absurd (hfirst t hlater) (Nat.not_lt.2 (hleast item (List.mem_cons_self ..) hp))
      | false =>
          rw [List.find?_cons_of_neg (by simp [hp]), ih hrest, List.mem_cons, List.forall_mem_cons]
          constructor
          · rintro ⟨hmem, hpt, hleast⟩
            exact ⟨.inr hmem, hpt, by simp [hp], hleast⟩
          · rintro ⟨rfl | hmem, hpt, -, hleast⟩
            · rw [hp] at hpt
              cases hpt
            · exact ⟨hmem, hpt, hleast⟩

section

variable {line : List Char} {character start stop : Nat}

/-- The first token that the character touches. -/
def tokenAt? (line : List Char) (character : Nat) : Option (Nat × Nat) :=
  (tokens line).find? fun t => t.1 ≤ character && character ≤ t.2

/-- The first token that the character touches, among all tokens. -/
theorem tokenAt?_eq_some_iff :
    tokenAt? line character = some (start, stop) ↔
      Token line start stop ∧ (start ≤ character ∧ character ≤ stop) ∧
        ∀ s e, Token line s e → s ≤ character → character ≤ e → start ≤ s := by
  rw [tokenAt?, find?_eq_some_iff_least (pairwise_tokens line), mem_tokens_iff, Bool.and_eq_true,
    decide_eq_true_iff, decide_eq_true_iff]
  refine and_congr_right fun _ => and_congr_right fun _ => ⟨fun h s e htoken hs he => ?_, ?_⟩
  · exact h (s, e) (mem_tokens_iff.2 htoken) (by simp [hs, he])
  · rintro h ⟨s, e⟩ hmem htouch
    rw [Bool.and_eq_true, decide_eq_true_iff, decide_eq_true_iff] at htouch
    exact h s e (mem_tokens_iff.1 hmem) htouch.1 htouch.2

/-- The token that a cursor in front of the given character is on: it is inside the token or at its
end, or there is no such token and it is right in front of this one. -/
def UnderCursor (line : List Char) (character start stop : Nat) : Prop :=
  Token line start stop ∧
    (start < character ∧ character ≤ stop ∨
      start = character ∧ ¬∃ s e, Token line s e ∧ s < character ∧ character ≤ e)

/-- A cursor is inside, or at the end, of at most one token. -/
theorem Token.eq_of_inside {start' stop' : Nat} (h : Token line start stop)
    (h' : Token line start' stop') (hstart : start < character) (hstop : character ≤ stop)
    (hstart' : start' < character) (hstop' : character ≤ stop') :
    start = start' ∧ stop = stop' := by
  rcases Nat.lt_trichotomy start start' with hlt | rfl | hlt
  · have hapart := h.stop_le_of_lt h' hlt
    omega
  · exact ⟨rfl, h.tokenLength_drop.symm.trans h'.tokenLength_drop⟩
  · have hapart := h'.stop_le_of_lt h hlt
    omega

/-- The first token that the cursor touches is the one that it is on. -/
theorem tokenAt?_eq_some_iff_underCursor :
    tokenAt? line character = some (start, stop) ↔ UnderCursor line character start stop := by
  rw [tokenAt?_eq_some_iff]
  refine and_congr_right fun htoken => ?_
  constructor
  · rintro ⟨⟨hstart, hstop⟩, hleast⟩
    rcases Nat.eq_or_lt_of_le hstart with rfl | hlt
    · refine .inr ⟨rfl, ?_⟩
      rintro ⟨s, e, hother, hs, he⟩
      exact absurd (hleast s e hother (Nat.le_of_lt hs) he) (Nat.not_le_of_lt hs)
    · exact .inl ⟨hlt, hstop⟩
  · rintro (⟨hstart, hstop⟩ | ⟨rfl, hnone⟩)
    · refine ⟨⟨Nat.le_of_lt hstart, hstop⟩, fun s e hother hs he => ?_⟩
      rcases Nat.eq_or_lt_of_le hs with rfl | hlt
      · exact Nat.le_of_lt hstart
      · exact Nat.le_of_eq (htoken.eq_of_inside hother hstart hstop hlt he).1
    · refine ⟨⟨Nat.le_refl _, Nat.le_of_lt htoken.lt⟩, fun s e hother hs he => ?_⟩
      exact Nat.le_of_not_lt fun hlt => hnone ⟨s, e, hother, hlt, he⟩

end

/-! ### The search -/

/-- On one line, touching is a matter of the characters alone. -/
theorem touches_iff {p : Position} {start stop : Nat}
    (h : (⟨p.line, start⟩ : Position) ≤ ⟨p.line, stop⟩) :
    Range.touches ⟨⟨p.line, start⟩, ⟨p.line, stop⟩, h⟩ p = true ↔
      start ≤ p.character ∧ p.character ≤ stop := by
  simp [Range.touches, Position.le_iff]

theorem range_eq_iff {r s : Range} : r = s ↔ s.start = r.start ∧ s.stop = r.stop := by
  obtain ⟨first, last, ordered⟩ := r
  obtain ⟨first', last', ordered'⟩ := s
  rw [Range.mk.injEq]
  exact and_congr eq_comm eq_comm

/-- Every candidate can be made, and nothing behind the position is touched. -/
theorem exists_touched (p : Position) {items : List (Nat × Nat)}
    (hordered : items.Pairwise fun t u => t.1 < u.1) (hproper : ∀ t ∈ items, t.1 ≤ t.2) :
    ∃ answer, touched p items = .ok answer ∧
      ∀ r, answer = some r ↔
        ∃ t, items.find? (fun t => t.1 ≤ p.character && p.character ≤ t.2) = some t ∧
          r.start = ⟨p.line, t.1⟩ ∧ r.stop = ⟨p.line, t.2⟩ := by
  induction items with
  | nil => exact ⟨none, rfl, by simp⟩
  | cons item items ih =>
      obtain ⟨start, stop⟩ := item
      obtain ⟨hfirst, hrest⟩ := List.pairwise_cons.1 hordered
      obtain ⟨hle, hproper⟩ := List.forall_mem_cons.1 hproper
      rw [touched, Range.onLine_natCast hle]
      simp only [bind, Except.bind, touches_iff]
      by_cases htouch : start ≤ p.character ∧ p.character ≤ stop
      · rw [if_pos htouch, List.find?_cons_of_pos (by simpa using htouch)]
        refine ⟨_, rfl, fun r => ?_⟩
        simp [range_eq_iff]
      · rw [if_neg htouch, List.find?_cons_of_neg (by simpa using htouch)]
        by_cases hbehind : p.character < start
        · -- the others are behind the position too
          have hnone : items.find? (fun t => t.1 ≤ p.character && p.character ≤ t.2) = none := by
            refine List.find?_eq_none.2 fun t ht => ?_
            have hlt := hfirst t ht
            have hfar : ¬t.1 ≤ p.character := by omega
            simp [hfar]
          rw [if_pos hbehind, hnone]
          exact ⟨none, rfl, by simp⟩
        · rw [if_neg hbehind]
          exact ih hrest hproper

/-- The range at a position is that of the token under it. -/
theorem exists_wordRange? (line : List Char) (p : Position) :
    ∃ answer, wordRange? line p = .ok answer ∧
      ∀ r, answer = some r ↔
        ∃ start stop, UnderCursor line p.character start stop ∧
          r.start = ⟨p.line, start⟩ ∧ r.stop = ⟨p.line, stop⟩ := by
  obtain ⟨answer, htouched, hanswer⟩ := exists_touched p (pairwise_tokens line)
    fun _ ht => Nat.le_of_lt (mem_tokens_iff.1 ht).lt
  refine ⟨answer, htouched, fun r => ?_⟩
  rw [hanswer, Prod.exists]
  refine exists_congr fun start => exists_congr fun stop => and_congr_left fun _ => ?_
  exact tokenAt?_eq_some_iff_underCursor

theorem lineAt_of_getElem? {d : Document} {number : Nat} {text : String}
    (h : (splitLines d.text)[number]? = some text) : d.lineAt number = .ok text := by
  change d.lineAt (Int.ofNat number) = .ok text
  rw [Document.lineAt, h]

/-- The explanation at a position is that of the token under it. -/
theorem exists_at? (d : Document) (p : Position) :
    ∃ answer, Hover.at? d p = .ok answer ∧
      ∀ h, answer = some h ↔
        ∃ line start stop, (splitLines d.text)[p.line]? = some line ∧
          UnderCursor line.toList p.character start stop ∧
          Vocabulary.hoverDocs.lookup (String.ofList (slice line.toList start stop)) =
            some h.contents ∧
          h.range.start = ⟨p.line, start⟩ ∧ h.range.stop = ⟨p.line, stop⟩ := by
  unfold Hover.at?
  cases hline : (splitLines d.text)[p.line]? with
  | none =>
      have houtside : d.lineCount ≤ p.line := List.getElem?_eq_none_iff.1 hline
      rw [if_pos houtside]
      exact ⟨none, rfl, by simp⟩
  | some line =>
      have hinside : p.line < d.lineCount := (List.getElem?_eq_some_iff.1 hline).1
      obtain ⟨found, hfound, hrange⟩ := exists_wordRange? line.toList p
      rw [if_neg (Nat.not_le_of_lt hinside), lineAt_of_getElem? hline]
      simp only [bind, Except.bind, hfound]
      cases found with
      | none =>
          refine ⟨none, rfl, fun h => ⟨nofun, ?_⟩⟩
          rintro ⟨line', start, stop, hline', hunder, -, hstart, hstop⟩
          obtain rfl := Option.some.inj hline'
          cases (hrange h.range).2 ⟨start, stop, hunder, hstart, hstop⟩
      | some range =>
          refine ⟨_, rfl, fun h => ⟨fun hmap => ?_, ?_⟩⟩
          · obtain ⟨contents, hcontents, rfl⟩ := Option.map_eq_some_iff.1 hmap
            obtain ⟨start, stop, hunder, hstart, hstop⟩ := (hrange range).1 rfl
            rw [hstart, hstop] at hcontents
            exact ⟨line, start, stop, rfl, hunder, hcontents, hstart, hstop⟩
          · rintro ⟨line', start, stop, hline', hunder, hcontents, hstart, hstop⟩
            obtain rfl := Option.some.inj hline'
            obtain rfl := Option.some.inj ((hrange h.range).2 ⟨start, stop, hunder, hstart, hstop⟩)
            refine Option.map_eq_some_iff.2 ⟨h.contents, ?_, rfl⟩
            rw [hstart, hstop]
            exact hcontents

/-! ### Positions and tokens -/

/-- **The cursor and its token.**  A cursor is inside, or at the end, of at most one token.  The
range at a position is that of this token; if there is none, that of the token which starts at the
position; and otherwise there is no range.  A position of a document has an explanation if and only
if its line is in the document and the token under it has an entry in the vocabulary; the
explanation is that entry and the range of the token.  No check on the way to these answers ever
refuses. -/
theorem hover_explains_the_token_under_the_cursor :
    (∀ (line : List Char) (p : Position),
      (∀ start stop start' stop', Token line start stop → Token line start' stop' →
        start < p.character → p.character ≤ stop → start' < p.character → p.character ≤ stop' →
          start = start' ∧ stop = stop') ∧
      ∃ answer, wordRange? line p = .ok answer ∧
        ∀ r, answer = some r ↔
          ∃ start stop, Token line start stop ∧
            (start < p.character ∧ p.character ≤ stop ∨
              start = p.character ∧
                ¬∃ s e, Token line s e ∧ s < p.character ∧ p.character ≤ e) ∧
            r.start = ⟨p.line, start⟩ ∧ r.stop = ⟨p.line, stop⟩) ∧
    ∀ (d : Document) (p : Position), ∃ answer, Hover.at? d p = .ok answer ∧
      ∀ h, answer = some h ↔
        ∃ line start stop, (splitLines d.text)[p.line]? = some line ∧
          UnderCursor line.toList p.character start stop ∧
          Vocabulary.hoverDocs.lookup (String.ofList (slice line.toList start stop)) =
            some h.contents ∧
          h.range.start = ⟨p.line, start⟩ ∧ h.range.stop = ⟨p.line, stop⟩ := by
  refine ⟨fun line p => ⟨?_, ?_⟩, exists_at?⟩
  · intro start stop start' stop' htoken htoken' hstart hstop hstart' hstop'
    exact htoken.eq_of_inside htoken' hstart hstop hstart' hstop'
  · obtain ⟨answer, hword, hanswer⟩ := exists_wordRange? line p
    refine ⟨answer, hword, fun r => ?_⟩
    simpa only [UnderCursor, and_assoc] using hanswer r

end Edl.Hover
