/-
The tokens of a line, without reading it from left to right.

The scanner of `Edl.Hover` goes through a line once, and where it looks for the next token depends
on where the last one ended.  But the tokens can be told from their surroundings alone.  An
identifier is what is left of a longest run of word characters without the digits that open it, and
a flow operator is a pair of characters, except that the dash of a `->` may already belong to a
`<-`.  Two such tokens never overlap, so the scanner, which resumes behind each token, cannot step
over the start of another.

Main definitions:

* `Edl.Hover.flowOperators` — the four operators, by their characters;
* `Edl.Hover.Token` — a stretch of a line that is a token, by its ends;
* `Edl.Hover.Clear` — a place that no token reaches across.

Main results:

* `Edl.Hover.Token.stop_le_of_lt` — tokens do not overlap;
* `Edl.Hover.Token.tokenLength_drop`, `Edl.Hover.token_of_tokenLength_ne_zero` — at a clear
  place the scanner finds a token exactly where one starts;
* `Edl.Hover.mem_tokens_iff`, `Edl.Hover.pairwise_tokens` — **the scanner finds all tokens and
  nothing else**, in order.
-/

import Edl.Hover
import Edl.Proofs.Span

set_option relaxedAutoImplicit false
set_option autoImplicit false

namespace Edl.Hover

open Text

/-! ### Tokens by their surroundings -/

/-- The flow operators, each by its two characters. -/
def flowOperators : List (Char × Char) :=
  [('-', '>'), ('=', '>'), ('<', '-'), ('|', '>')]

/-- The characters from `start` up to `stop` are a token of the text. -/
inductive Token (text : List Char) : (start stop : Nat) → Prop
  /-- A run of word characters from its first character that is no digit. -/
  | identifier {first start stop : Nat} (run : Run text first stop)
      (digits : Span Char.isDigit text first start) (inside : start < stop) :
      Token text start stop
  /-- A flow operator; the dash right behind a `<` opens none. -/
  | operator {start : Nat} {a b : Char} (left : text[start]? = some a)
      (right : text[start + 1]? = some b) (flow : (a, b) ∈ flowOperators)
      (free : a = '-' → ∀ k, k + 1 = start → text[k]? ≠ some '<') : Token text start (start + 2)

theorem isWordChar_of_mem_flowOperators {a b : Char} (h : (a, b) ∈ flowOperators) :
    isWordChar a = false ∧ isWordChar b = false := by
  have hall : ∀ t ∈ flowOperators, isWordChar t.1 = false ∧ isWordChar t.2 = false := by decide
  exact hall (a, b) h

/-- Only a `<-` ends with a character that an operator starts with. -/
theorem eq_of_chained_flowOperators {a b c : Char} (h : (a, b) ∈ flowOperators)
    (h' : (b, c) ∈ flowOperators) : a = '<' ∧ b = '-' := by
  have hall : ∀ t ∈ flowOperators, ∀ u ∈ flowOperators, t.2 = u.1 → t.1 = '<' ∧ t.2 = '-' := by
    decide
  exact hall (a, b) h (b, c) h' rfl

section

variable {text : List Char} {start stop start' stop' : Nat}

theorem Token.lt (h : Token text start stop) : start < stop := by
  cases h with
  | identifier run digits inside => exact inside
  | operator left right flow free => omega

/-- A token starts inside the text. -/
theorem Token.start_lt_length (h : Token text start stop) : start < text.length := by
  cases h with
  | identifier run digits inside => exact (run.span.inside start digits.le inside).lt_length
  | operator left right flow free => exact (List.getElem?_eq_some_iff.1 left).1

/-- Tokens do not overlap. -/
theorem Token.stop_le_of_lt (h : Token text start stop) (h' : Token text start' stop')
    (hlt : start < start') : stop ≤ start' := by
  refine Nat.le_of_not_lt fun hinner => ?_
  cases h with
  | identifier run digits inside =>
      have hword : At isWordChar text start' :=
        run.span.inside start' (Nat.le_trans digits.le (Nat.le_of_lt hlt)) hinner
      cases h' with
      | identifier run' digits' inside' =>
          -- both are in one run, which has only one first character that is no digit
          have hle := digits.le
          have hle' := digits'.le
          obtain ⟨rfl, rfl⟩ := run.eq_of_overlap run' (by omega) (by omega)
          exact absurd (digits.unique digits') (Nat.ne_of_lt hlt)
      | operator left right flow free =>
          rw [at_iff_of_getElem? left, (isWordChar_of_mem_flowOperators flow).1] at hword
          cases hword
  | operator left right flow free =>
      obtain rfl : start' = start + 1 := by omega
      cases h' with
      | identifier run' digits' inside' =>
          have hword := run'.span.inside (start + 1) digits'.le inside'
          rw [at_iff_of_getElem? right, (isWordChar_of_mem_flowOperators flow).2] at hword
          cases hword
      | operator left' right' flow' free' =>
          obtain rfl := Option.some.inj (right.symm.trans left')
          obtain ⟨rfl, rfl⟩ := eq_of_chained_flowOperators flow flow'
          exact free' rfl start rfl left

/-! ### What the scanner sees at one place -/

theorem tokenLength_of_flow {a b : Char} (h : (a, b) ∈ flowOperators) (rest : List Char) :
    tokenLength (a :: b :: rest) = 2 := by
  simp only [flowOperators, List.mem_cons, Prod.mk.injEq, List.not_mem_nil, or_false] at h
  rcases h with ⟨rfl, rfl⟩ | ⟨rfl, rfl⟩ | ⟨rfl, rfl⟩ | ⟨rfl, rfl⟩ <;> rfl

theorem tokenLength_of_word {c : Char} (hword : isWordChar c = true) (hdigit : c.isDigit = false)
    (rest : List Char) :
    tokenLength (c :: rest) = ((c :: rest).takeWhile isWordChar).length := by
  rw [List.takeWhile_cons_of_pos hword, List.length_cons]
  unfold tokenLength
  split
  -- the first four cases are those of the operators, whose characters are no word characters
  iterate 4
    · next heq =>
        obtain rfl := (List.cons.inj heq).1
        exact absurd hword (by decide)
  · next heq =>
      obtain ⟨rfl, rfl⟩ := List.cons.inj heq
      rw [hword, hdigit]
      rfl
  · next heq => cases heq

/-- Where the scanner finds a token, there is an operator or a word character that is no digit. -/
theorem tokenLength_cases (h : tokenLength text ≠ 0) :
    (∃ a b rest, text = a :: b :: rest ∧ (a, b) ∈ flowOperators) ∨
      ∃ c rest, text = c :: rest ∧ isWordChar c = true ∧ c.isDigit = false := by
  unfold tokenLength at h
  split at h
  · next rest => exact .inl ⟨'-', '>', rest, rfl, by decide⟩
  · next rest => exact .inl ⟨'=', '>', rest, rfl, by decide⟩
  · next rest => exact .inl ⟨'<', '-', rest, rfl, by decide⟩
  · next rest => exact .inl ⟨'|', '>', rest, rfl, by decide⟩
  · next c rest _ _ _ _ =>
      split at h
      · next hc =>
          rw [Bool.and_eq_true, Bool.not_eq_true'] at hc
          exact .inr ⟨c, rest, rfl, hc⟩
      · exact absurd rfl h
  · exact absurd rfl h

/-- At the start of a token the scanner reads that token. -/
theorem Token.tokenLength_drop (h : Token text start stop) :
    start + tokenLength (text.drop start) = stop := by
  cases h with
  | identifier run digits inside =>
      obtain ⟨c, hc, hword⟩ := run.span.inside start digits.le inside
      have hdigit : c.isDigit = false :=
        Bool.eq_false_iff.2 fun hd => digits.closed ⟨c, hc, hd⟩
      have hdrop : text.drop start = c :: text.drop (start + 1) := drop_eq_cons_iff.2 ⟨hc, rfl⟩
      rw [hdrop, tokenLength_of_word hword hdigit, ← hdrop]
      exact (run.span.mono digits.le (Nat.le_of_lt inside)).eq_add_length.symm
  | operator left right flow free =>
      rw [drop_eq_cons_iff.2 ⟨left, rfl⟩, drop_eq_cons_iff.2 ⟨right, rfl⟩, tokenLength_of_flow flow]

/-! ### Clear places -/

/-- No token has characters on both sides of the place. -/
def Clear (text : List Char) (k : Nat) : Prop :=
  ∀ start stop, Token text start stop → start < k → stop ≤ k

theorem clear_zero (text : List Char) : Clear text 0 :=
  fun _ _ _ hlt => absurd hlt (Nat.not_lt_zero _)

/-- A word character that is no digit belongs to an identifier. -/
theorem exists_token_of_word {k : Nat} {c : Char} (hc : text[k]? = some c)
    (hword : isWordChar c = true) (hdigit : c.isDigit = false) :
    ∃ start stop, Token text start stop ∧ start ≤ k ∧ k < stop := by
  obtain ⟨first, stop, run, hfirst, hstop⟩ := exists_run ⟨c, hc, hword⟩
  obtain ⟨start, digits, -⟩ := exists_span Char.isDigit text first
  have hstart : start ≤ k := by
    refine Nat.le_of_not_lt fun hlt => ?_
    have hat := digits.inside k hfirst hlt
    rw [at_iff_of_getElem? hc, hdigit] at hat
    cases hat
  exact ⟨start, stop, .identifier run digits (Nat.lt_of_le_of_lt hstart hstop), hstart, hstop⟩

/-- A flow operator is a token, unless its dash is the end of one. -/
theorem exists_token_of_flow {k : Nat} {a b : Char} (left : text[k]? = some a)
    (right : text[k + 1]? = some b) (flow : (a, b) ∈ flowOperators) :
    ∃ start stop, Token text start stop ∧ start ≤ k ∧ k < stop := by
  cases k with
  | zero =>
      have hfree : a = '-' → ∀ d, d + 1 = 0 → text[d]? ≠ some '<' :=
        fun _ d hd => absurd hd (Nat.succ_ne_zero d)
      exact ⟨0, 2, .operator left right flow hfree, Nat.le_refl 0, by omega⟩
  | succ d =>
      by_cases htaken : a = '-' ∧ text[d]? = some '<'
      · obtain ⟨rfl, hless⟩ := htaken
        have hfree : '<' = '-' → ∀ j, j + 1 = d → text[j]? ≠ some '<' :=
          fun habsurd => absurd habsurd (by decide)
        exact ⟨d, d + 2, .operator hless left (by decide) hfree, by omega, by omega⟩
      · refine ⟨d + 1, d + 1 + 2, .operator left right flow ?_, Nat.le_refl _, by omega⟩
        rintro hdash j hj hless
        obtain rfl := Nat.succ.inj hj
        exact htaken ⟨hdash, hless⟩

/-- At a clear place the scanner finds nothing but tokens. -/
theorem token_of_tokenLength_ne_zero {k : Nat} (hclear : Clear text k)
    (h : tokenLength (text.drop k) ≠ 0) : Token text k (k + tokenLength (text.drop k)) := by
  have htoken : ∃ start stop, Token text start stop ∧ start ≤ k ∧ k < stop := by
    rcases tokenLength_cases h with ⟨a, b, rest, hdrop, flow⟩ | ⟨c, rest, hdrop, hword, hdigit⟩
    · obtain ⟨left, htail⟩ := drop_eq_cons_iff.1 hdrop
      exact exists_token_of_flow left (drop_eq_cons_iff.1 htail.symm).1 flow
    · exact exists_token_of_word (drop_eq_cons_iff.1 hdrop).1 hword hdigit
  obtain ⟨start, stop, htoken, hle, hlt⟩ := htoken
  -- the token does not reach across the place, so it starts there
  obtain rfl : start = k := by
    rcases Nat.eq_or_lt_of_le hle with heq | hbefore
    · exact heq
    · exact absurd (hclear start stop htoken hbefore) (Nat.not_le_of_lt hlt)
  rwa [htoken.tokenLength_drop]

theorem Clear.succ {k : Nat} (h : Clear text k) (hnone : tokenLength (text.drop k) = 0) :
    Clear text (k + 1) := by
  intro start stop htoken hlt
  rcases Nat.eq_or_lt_of_le (Nat.le_of_lt_succ hlt) with rfl | hbefore
  · have hlength := htoken.tokenLength_drop
    have hpos := htoken.lt
    omega
  · exact Nat.le_succ_of_le (h start stop htoken hbefore)

theorem Token.clear_stop (h : Token text start stop) : Clear text stop := by
  intro start' stop' htoken hlt
  rcases Nat.lt_trichotomy start' start with hbefore | rfl | hafter
  · exact Nat.le_trans (htoken.stop_le_of_lt h hbefore) (Nat.le_of_lt h.lt)
  · exact Nat.le_of_eq (htoken.tokenLength_drop.symm.trans h.tokenLength_drop)
  · exact absurd (h.stop_le_of_lt htoken hafter) (Nat.not_le_of_lt hlt)

end

/-! ### The scanner -/

/-- What the scanner finds from some place on, when the place where it resumes is clear. -/
theorem mem_tokensFrom_iff {text rest : List Char} {place busy start stop : Nat}
    (hrest : text.drop place = rest) (hclear : Clear text (place + busy)) :
    (start, stop) ∈ tokensFrom place busy rest ↔
      Token text start stop ∧ place + busy ≤ start := by
  induction rest generalizing place busy with
  | nil =>
      refine iff_of_false List.not_mem_nil ?_
      rintro ⟨htoken, hle⟩
      have hinside := htoken.start_lt_length
      have hend := List.drop_eq_nil_iff.1 hrest
      omega
  | cons c rest ih =>
      have hnext : text.drop (place + 1) = rest := (drop_eq_cons_iff.1 hrest).2.symm
      cases busy with
      | succ busy =>
          have hplace : place + (busy + 1) = place + 1 + busy := by omega
          rw [hplace] at hclear ⊢
          exact ih hnext hclear
      | zero =>
          rw [Nat.add_zero] at hclear ⊢
          rw [tokensFrom]
          cases hlength : tokenLength (c :: rest) with
          | zero =>
              rw [← hrest] at hlength
              refine (ih hnext (hclear.succ hlength)).trans ⟨?_, ?_⟩
              · exact fun h => ⟨h.1, Nat.le_of_succ_le h.2⟩
              · rintro ⟨htoken, hle⟩
                have hpos := htoken.lt
                have hstop := htoken.tokenLength_drop
                refine ⟨htoken, Nat.lt_of_le_of_ne hle ?_⟩
                rintro rfl
                omega
          | succ length =>
              rw [← hrest] at hlength
              have hhere := token_of_tokenLength_ne_zero hclear (by omega)
              have hplace : place + tokenLength (text.drop place) = place + 1 + length := by omega
              rw [hplace] at hhere
              rw [List.mem_cons, ih hnext hhere.clear_stop]
              constructor
              · rintro (heq | ⟨htoken, hle⟩)
                · obtain ⟨rfl, rfl⟩ := Prod.mk.inj heq
                  have hstop : start + length + 1 = start + 1 + length := by omega
                  exact ⟨hstop ▸ hhere, Nat.le_refl _⟩
                · exact ⟨htoken, by omega⟩
              · rintro ⟨htoken, hle⟩
                rcases Nat.eq_or_lt_of_le hle with rfl | hafter
                · have hstop := htoken.tokenLength_drop
                  exact .inl (Prod.ext rfl (by dsimp only; omega))
                · exact .inr ⟨htoken, hhere.stop_le_of_lt htoken hafter⟩

/-- The scanner finds exactly the tokens. -/
theorem mem_tokens_iff {text : List Char} {start stop : Nat} :
    (start, stop) ∈ tokens text ↔ Token text start stop := by
  rw [tokens, mem_tokensFrom_iff List.drop_zero (clear_zero text)]
  simp

example : tokens ['<', '-', '>', '1', 'a', '_', '2', '|', '>'] = [(0, 2), (4, 7), (7, 9)] := by
  decide

theorem le_of_mem_tokensFrom {place busy : Nat} {rest : List Char} {t : Nat × Nat}
    (h : t ∈ tokensFrom place busy rest) : place ≤ t.1 := by
  induction rest generalizing place busy with
  | nil => cases h
  | cons c rest ih =>
      cases busy with
      | succ busy => exact Nat.le_of_succ_le (ih h)
      | zero =>
          rw [tokensFrom] at h
          split at h
          · exact Nat.le_of_succ_le (ih h)
          · rcases List.mem_cons.1 h with rfl | hlater
            · exact Nat.le_refl _
            · exact Nat.le_of_succ_le (ih hlater)

theorem pairwise_tokensFrom (place busy : Nat) (rest : List Char) :
    (tokensFrom place busy rest).Pairwise fun t u => t.1 < u.1 := by
  induction rest generalizing place busy with
  | nil => exact .nil
  | cons c rest ih =>
      cases busy with
      | succ busy => exact ih (place + 1) busy
      | zero =>
          rw [tokensFrom]
          split
          · exact ih (place + 1) 0
          · next length _ =>
              exact List.pairwise_cons.2
                ⟨fun t ht => le_of_mem_tokensFrom ht, ih (place + 1) length⟩

/-- The scanner finds the tokens in order. -/
theorem pairwise_tokens (text : List Char) : (tokens text).Pairwise fun t u => t.1 < u.1 :=
  pairwise_tokensFrom 0 0 text

end Edl.Hover
