/-
Blanks around a line only move what is found in it.

The checks of syntax and meaning skip blanks between words and signs, so one might fear that blanks
at either end of a line complete or lengthen what they look for.  They do not: no recogniser starts
at a blank, so that none starts in front of the line, and `Edl.Text.SkipsPadding` says that none
ends behind it.  A name is found at its first place in the line, and names hold no blanks, so that
this place moves by just the blanks in front.  The checks that mark the last character or the whole
of a line mark those of the longer line.

Main definitions:

* `Edl.Text.StartsVisibly` — a recogniser that does not start at a blank;
* `Edl.Lint.FindsWords` — a recogniser whose answers are words in the text;
* `Edl.Diagnostic.right`, `Edl.Diagnostic.onto` — a diagnostic moved to the right, and one on other
  characters of its line.

Main results:

* `Edl.Text.firstMatch_between` — a search in a line with blanks around it;
* `Edl.Text.indexOf?_between` — the place of a word in such a line;
* `Edl.Lint.missingBracket_between`, `Edl.Lint.FindsParts.ofName_between`, … — the checks;
* `Edl.Lint.margins_only_move_findings` — **what the rules report on a line with blanks around it**.
-/

import Edl.Proofs.Padding
import Edl.Proofs.Stretch

set_option relaxedAutoImplicit false
set_option autoImplicit false

namespace Edl

namespace Text

/-! ### Blanks in front of a text -/

section

variable {front back : List Char}

theorem trimStart_blank_append (h : Blank front) (text : List Char) :
    trimStart (front ++ text) = trimStart text :=
  List.dropWhile_append_of_pos h

/-- Blanks on both sides of a line are trimmed off. -/
theorem trim_between (hfront : Blank front) (hback : Blank back) (line : List Char) :
    trim (front ++ line ++ back) = trim line := by
  rw [trim_append_blank hback, trim, trim, trimStart_blank_append hfront]

/-- The recogniser has no answer at a blank. -/
def StartsVisibly {α : Type} (recognise : List Char → Option α) : Prop :=
  ∀ c text, isBlank c = true → recognise (c :: text) = none

/-- A search in a line finds the same with blanks around the line. -/
theorem firstMatch_between {α : Type} {recognise : List Char → Option α}
    (hstart : StartsVisibly recognise) (hskip : SkipsPadding recognise) (hfront : Blank front)
    (hback : Blank back) (line : List Char) :
    firstMatch recognise (front ++ line ++ back) = firstMatch recognise line := by
  rw [hskip.firstMatch (front ++ line) back hback]
  induction front with
  | nil => rfl
  | cons c front ih =>
      have hnone := hstart c (front ++ line) (hfront c (List.mem_cons_self ..))
      rw [List.cons_append, firstMatch, hnone]
      exact ih hfront.tail

/-! ### The place of a word -/

variable {needle : List Char}

theorem isBlank_of_mem_word (hword : ∀ c ∈ needle, isWordChar c = true) :
    ∀ c ∈ needle, isBlank c = false :=
  fun c hc => isBlank_of_isWordChar (hword c hc)

/-- No word starts at a blank. -/
theorem after?_word_blank (hne : needle ≠ []) (hword : ∀ c ∈ needle, isWordChar c = true) {c : Char}
    (hc : isBlank c = true) (text : List Char) : after? needle (c :: text) = none := by
  obtain ⟨d, needle, rfl⟩ := List.exists_cons_of_ne_nil hne
  refine if_neg ?_
  rintro rfl
  have hvisible := isBlank_of_mem_word hword d (List.mem_cons_self ..)
  rw [hc] at hvisible
  cases hvisible

/-- Blanks in front of a text move the words in it. -/
theorem indexOf?_blank_append (hne : needle ≠ []) (hword : ∀ c ∈ needle, isWordChar c = true)
    (hfront : Blank front) (text : List Char) :
    indexOf? needle (front ++ text) = (indexOf? needle text).map (· + front.length) := by
  induction front with
  | nil => exact Option.map_id'.symm
  | cons c front ih =>
      have hhere := after?_word_blank hne hword (hfront c (List.mem_cons_self ..)) (front ++ text)
      rw [List.cons_append, indexOf?, hhere, ih hfront.tail, Option.map_map]
      rfl

/-- Blanks behind a text hold no words. -/
theorem indexOf?_append_blank (hne : needle ≠ []) (hword : ∀ c ∈ needle, isWordChar c = true)
    (hback : Blank back) (text : List Char) :
    indexOf? needle (text ++ back) = indexOf? needle text := by
  induction text with
  | nil =>
      have hall := indexOf?_blank_append hne hword hback []
      rw [List.append_nil] at hall
      rw [List.nil_append, hall, indexOf?, if_neg hne]
      rfl
  | cons c text ih =>
      have hhere := after?_append_blank hback (isBlank_of_mem_word hword) (c :: text)
      rw [List.cons_append] at hhere
      rw [List.cons_append, indexOf?, hhere, Option.isSome_map, ih, indexOf?]

/-- Blanks around a line move the words in it by the blanks in front. -/
theorem indexOf?_between (hne : needle ≠ []) (hword : ∀ c ∈ needle, isWordChar c = true)
    (hfront : Blank front) (hback : Blank back) (line : List Char) :
    indexOf? needle (front ++ line ++ back) = (indexOf? needle line).map (· + front.length) := by
  rw [indexOf?_append_blank hne hword hback, indexOf?_blank_append hne hword hfront]

end

/-- The position some characters further right. -/
def Position.right (k : Nat) (p : Position) : Position :=
  ⟨p.line, p.character + k⟩

/-- The range some characters further right, if it is on one line. -/
def Range.right (k : Nat) (r : Range) : Range where
  start := r.start.right k
  stop := r.stop.right k
  ordered := by
    have hordered := Position.le_iff.1 r.ordered
    simp only [Position.le_iff, Position.right]
    omega

end Text

/-- The diagnostic some characters further right. -/
def Diagnostic.right (k : Nat) (d : Diagnostic) : Diagnostic :=
  { d with range := d.range.right k }

/-- The diagnostic on `length` characters of its line, from the one at `start` on. -/
def Diagnostic.onto (start length : Nat) (d : Diagnostic) : Diagnostic :=
  { d with range := .stretch d.range.start.line start length }

namespace Lint

open Text

/-! ### Recognisers -/

theorem startsVisibly_declaredEvent? : StartsVisibly declaredEvent? := by
  intro c text hc
  rw [declaredEvent?, after?_word_blank (by simp) (List.all_eq_true.1 rfl) hc]

theorem startsVisibly_emittedEvent? : StartsVisibly emittedEvent? := by
  intro c text hc
  rw [emittedEvent?, after?_word_blank (by simp) (List.all_eq_true.1 rfl) hc]

theorem startsVisibly_transition? : StartsVisibly transition? := by
  intro c text hc
  have hword : word (c :: text) = [] := by
    rw [word, List.takeWhile_cons_of_neg (by simp [isWordChar_of_isBlank hc])]
  rw [transition?, if_pos hword]

theorem isWordChar_of_mem {c : Char} {text : List Char} (h : c ∈ word text) :
    isWordChar c = true :=
  List.all_eq_true.1 List.all_takeWhile c h

/-- The answers of the recogniser are words. -/
def FindsWords (recognise : List Char → Option (List Char)) : Prop :=
  ∀ text name, recognise text = some name → ∀ c ∈ name, isWordChar c = true

theorem findsWords_declaredEvent? : FindsWords declaredEvent? := by
  intro text name h
  unfold declaredEvent? at h
  split at h
  · cases h
  · split at h
    · cases h
    · obtain rfl := Option.some.inj h
      exact fun c hc => isWordChar_of_mem hc

theorem findsWords_emittedEvent? : FindsWords emittedEvent? := by
  intro text name h
  unfold emittedEvent? at h
  split at h
  · cases h
  · split at h
    · split at h
      · cases h
      · obtain rfl := Option.some.inj h
        exact fun c hc => isWordChar_of_mem hc
    · cases h

/-! ### Checks -/

/-- The finding some characters further right. -/
def Finding.right (k : Nat) (f : Finding) : Finding :=
  { f with start := f.start + k, stop := f.stop + k }

section

variable {front back : List Char}

/-- The first place of a name that is found moves by the blanks in front of the line. -/
theorem FindsParts.ofName_between {recognise : List Char → Option (List Char)}
    (h : FindsParts recognise) (hwords : FindsWords recognise) (hstarts : StartsVisibly recognise)
    (hskips : SkipsPadding recognise) (hfront : Blank front) (hback : Blank back)
    {isBad : List Char → Bool} {template : List Char → Template} (line : List Char) :
    Check.ofName recognise isBad template (front ++ line ++ back) =
      (Check.ofName recognise isBad template line).map
        (Option.map (Finding.right front.length)) := by
  have hsame := firstMatch_between hstarts hskips hfront hback line
  cases hmatch : firstMatch recognise line with
  | none =>
      rw [Check.ofName_of_no_match (hsame.trans hmatch), Check.ofName_of_no_match hmatch]
      rfl
  | some name =>
      obtain ⟨place, hplace, hcheck⟩ := h.ofName_of_match hmatch
      obtain ⟨place', hplace', hcheck'⟩ := h.ofName_of_match (hsame.trans hmatch)
      obtain ⟨rest, -, hrest⟩ := exists_suffix_of_firstMatch hmatch
      have hname := (h.exists_indexOf? hmatch).1
      rw [indexOf?_between hname (hwords rest name hrest) hfront hback, hplace] at hplace'
      obtain rfl := Option.some.inj hplace'
      rw [hcheck, hcheck']
      split
      · simp only [Except.map, Option.map_some, Finding.right, Int.natCast_add, Except.ok.injEq,
          Option.some_inj, Finding.mk.injEq, true_and]
        omega
      · rfl

/-- Signs that are not blank are counted in the line alone. -/
theorem count_between (hfront : Blank front) (hback : Blank back) {c : Char}
    (hc : isBlank c = false) (line : List Char) :
    (front ++ line ++ back).count c = line.count c := by
  have hnone := count_append_blank hfront hc []
  rw [List.nil_append, List.count_nil] at hnone
  rw [count_append_blank hback hc, List.count_append, hnone, Nat.zero_add]

theorem missingBracket_between (hfront : Blank front) (hback : Blank back) (line : List Char) :
    missingBracket (front ++ line ++ back) =
      (missingBracket line).map
        (Option.map fun f => .onLast f.template (front ++ line ++ back)) := by
  unfold missingBracket
  rw [count_between hfront hback (by decide), count_between hfront hback (by decide)]
  split <;> rfl

theorem missingSemicolon_between (hfront : Blank front) (hback : Blank back) (line : List Char) :
    missingSemicolon (front ++ line ++ back) =
      (missingSemicolon line).map
        (Option.map fun f => .onLast f.template (front ++ line ++ back)) := by
  have hcontains : (front ++ line ++ back).contains ';' = line.contains ';' := by
    rw [Bool.eq_iff_iff, List.contains_iff_mem, List.contains_iff_mem, ← List.count_pos_iff,
      ← List.count_pos_iff, count_between hfront hback (by decide)]
  unfold missingSemicolon
  rw [hcontains, trim_between hfront hback]
  split <;> rfl

theorem selfTransition_between (hfront : Blank front) (hback : Blank back) (line : List Char) :
    selfTransition (front ++ line ++ back) =
      (selfTransition line).map
        (Option.map fun f => .onAll f.template (front ++ line ++ back)) := by
  unfold selfTransition
  rw [firstMatch_between startsVisibly_transition? skipsPadding_transition? hfront hback]
  cases firstMatch transition? line with
  | none => rfl
  | some states =>
      dsimp only
      split <;> rfl

end

/-! ### Rules -/

section

variable {check : Check} {code : String} {line longer : String}

/-- When a check finds on one line what it finds on another, moved elsewhere, so do its reports. -/
theorem Check.Tidy.report_map (h : check.Tidy code) {shift : Finding → Finding}
    {move : Diagnostic → Diagnostic}
    (hcheck : check longer.toList = (check line.toList).map (Option.map shift))
    (hmove : ∀ f, f.Fits line.toList → ∀ number : Nat,
      (shift f).template.diagnostic ((shift f).range number) =
        move (f.template.diagnostic (f.range number)))
    (number : Int) :
    check.report longer number = (check.report line number).map (List.map move) := by
  rcases Int.lt_or_le number 0 with hneg | hpos
  · obtain ⟨found, hfound, hreport⟩ := h.report_of_neg line hneg
    obtain ⟨found', hfound', hreport'⟩ := h.report_of_neg longer hneg
    rw [hfound] at hcheck
    obtain rfl := Except.ok.inj (hfound'.symm.trans hcheck)
    rw [hreport, hreport']
    cases found <;> rfl
  · obtain ⟨number, rfl⟩ := Int.eq_ofNat_of_zero_le hpos
    obtain ⟨found, hfound, hreport⟩ := h.report_eq line number
    obtain ⟨found', hfound', hreport'⟩ := h.report_eq longer number
    obtain ⟨_, htidy, hfits⟩ := h line.toList
    obtain rfl := Except.ok.inj (hfound.symm.trans htidy)
    rw [hfound] at hcheck
    obtain rfl := Except.ok.inj (hfound'.symm.trans hcheck)
    rw [hreport, hreport']
    cases found with
    | none => rfl
    | some f =>
        simp only [Option.map_some, Option.toList_some, Except.map, List.map_cons, List.map_nil,
          hmove f (hfits f rfl).1 number]

theorem Check.Tidy.report_right (h : check.Tidy code) {k : Nat}
    (hcheck : check longer.toList = (check line.toList).map (Option.map (Finding.right k)))
    (number : Int) :
    check.report longer number =
      (check.report line number).map (List.map (Diagnostic.right k)) := by
  refine h.report_map hcheck (fun f hfits number => ?_) number
  have hstart : (f.start + k).toNat = f.start.toNat + k := by
    have hnonneg := hfits.start_nonneg
    omega
  have hlength : (f.stop + k - (f.start + k)).toNat = (f.stop - f.start).toNat := by omega
  simp only [Finding.right, Diagnostic.right, Finding.range, Template.diagnostic, Range.stretch,
    Range.right, Position.right, hstart, hlength, Nat.add_right_comm]

theorem Check.Tidy.report_onLast (h : check.Tidy code)
    (hcheck : check longer.toList =
      (check line.toList).map (Option.map fun f => .onLast f.template longer.toList))
    (number : Int) :
    check.report longer number =
      (check.report line number).map (List.map (Diagnostic.onto (longer.length - 1) 1)) := by
  refine h.report_map hcheck (fun f _ number => ?_) number
  have hstart : ((longer.length : Int) - 1).toNat = longer.length - 1 := by omega
  have hlength : ((longer.length : Int) - (longer.length - 1)).toNat = 1 := by omega
  simp only [Finding.onLast, Diagnostic.onto, Finding.range, Template.diagnostic, Range.stretch,
    String.length_toList, hstart, hlength]

theorem Check.Tidy.report_onAll (h : check.Tidy code)
    (hcheck : check longer.toList =
      (check line.toList).map (Option.map fun f => .onAll f.template longer.toList))
    (number : Int) :
    check.report longer number =
      (check.report line number).map (List.map (Diagnostic.onto 0 longer.length)) := by
  refine h.report_map hcheck (fun f _ number => ?_) number
  simp only [Finding.onAll, Diagnostic.onto, Finding.range, Template.diagnostic, Range.stretch,
    String.length_toList, Int.sub_zero, Int.toNat_natCast, Int.toNat_zero]

end

/-- Diagnostics that only stand elsewhere say the same. -/
theorem map_map_eq_of_moved {β : Type} {x y : Except Fault (List Diagnostic)}
    {move : Diagnostic → Diagnostic} {say : Diagnostic → β} (h : y = x.map (List.map move))
    (hsay : ∀ d, say (move d) = say d) : y.map (List.map say) = x.map (List.map say) := by
  subst h
  cases x with
  | error fault => rfl
  | ok ds =>
      change Except.ok ((ds.map move).map say) = Except.ok (ds.map say)
      rw [List.map_map]
      exact congrArg Except.ok (List.map_congr_left fun d _ => hsay d)

/-- **Blanks around a line only move what is found in it.**  Each rule of syntax and meaning reports
on a line with blanks around it if and only if it reports on the line alone, and it says the same.
The marks of names move right by the blanks in front; the marks of brackets and semicolons are on
the last character of the longer line; and a transition is marked by all of the longer line.  On a
line with a negative number, where nothing can be marked, a rule fails with the blanks if and only
if it fails without them. -/
theorem margins_only_move_findings {front back : String} (hfront : Blank front.toList)
    (hback : Blank back.toList) (line : String) (number : Int) :
    (∀ rule ∈ defaultRules, rule.domain = "syntax" ∨ rule.domain = "semantic" →
      (rule.run (front ++ line ++ back) number).map
          (List.map fun d => (d.code, d.message, d.severity)) =
        (rule.run line number).map (List.map fun d => (d.code, d.message, d.severity))) ∧
    (∀ rule ∈ [invalidEventNameRule, undefinedEventRule],
      rule.run (front ++ line ++ back) number =
        (rule.run line number).map (List.map (Diagnostic.right front.length))) ∧
    (∀ rule ∈ [missingBracketRule, missingSemicolonRule],
      rule.run (front ++ line ++ back) number =
        (rule.run line number).map
          (List.map (Diagnostic.onto ((front ++ line ++ back).length - 1) 1))) ∧
    selfTransitionRule.run (front ++ line ++ back) number =
      (selfTransitionRule.run line number).map
        (List.map (Diagnostic.onto 0 (front ++ line ++ back).length)) := by
  have hlist : (front ++ line ++ back).toList = front.toList ++ line.toList ++ back.toList := by
    rw [String.toList_append, String.toList_append]
  have hbracket := tidy_missingBracket.report_onLast
    (hlist ▸ missingBracket_between hfront hback line.toList) number
  have hsemicolon := tidy_missingSemicolon.report_onLast
    (hlist ▸ missingSemicolon_between hfront hback line.toList) number
  have hdeclared := tidy_invalidEventName.report_right
    (hlist ▸ findsParts_declaredEvent?.ofName_between findsWords_declaredEvent?
      startsVisibly_declaredEvent? skipsPadding_declaredEvent? hfront hback line.toList) number
  have hemitted := tidy_undefinedEvent.report_right
    (hlist ▸ findsParts_emittedEvent?.ofName_between findsWords_emittedEvent?
      startsVisibly_emittedEvent? skipsPadding_emittedEvent? hfront hback line.toList) number
  have htransition := tidy_selfTransition.report_onAll
    (hlist ▸ selfTransition_between hfront hback line.toList) number
  rw [String.length_toList] at hdeclared hemitted
  refine ⟨?_, List.forall_mem_cons.2 ⟨hdeclared, List.forall_mem_singleton.2 hemitted⟩,
    List.forall_mem_cons.2 ⟨hbracket, List.forall_mem_singleton.2 hsemicolon⟩, htransition⟩
  simp only [defaultRules, List.forall_mem_cons]
  exact ⟨fun _ => map_map_eq_of_moved hbracket fun _ => rfl,
    fun _ => map_map_eq_of_moved hdeclared fun _ => rfl,
    fun _ => map_map_eq_of_moved hsemicolon fun _ => rfl,
    fun _ => map_map_eq_of_moved hemitted fun _ => rfl,
    fun _ => map_map_eq_of_moved htransition fun _ => rfl,
    fun hstyle => absurd hstyle (by decide), fun hstyle => absurd hstyle (by decide),
    fun hstyle => absurd hstyle (by decide), List.forall_mem_nil _⟩

theorem margins_only_move_findings_indented :
    Blank " \t".toList ∧ Blank "\r".toList ∧
      invalidEventNameRule.run "event A \x7b A->A" 3 =
        .ok [Catalog.invalidEventName.diagnostic (.stretch 3 6 1)] ∧
      invalidEventNameRule.run (" \t" ++ "event A \x7b A->A" ++ "\r") 3 =
        .ok [Catalog.invalidEventName.diagnostic (.stretch 3 8 1)] ∧
      missingBracketRule.run (" \t" ++ "event A \x7b A->A" ++ "\r") 3 =
        .ok [Catalog.missingBracket.diagnostic (.stretch 3 16 1)] ∧
      selfTransitionRule.run (" \t" ++ "event A \x7b A->A" ++ "\r") 3 =
        .ok [Catalog.selfTransition.diagnostic (.stretch 3 0 17)] := by
  have hfront : Blank " \t".toList := List.all_eq_true.1 rfl
  have hback : Blank "\r".toList := List.all_eq_true.1 rfl
  obtain ⟨-, hnames, hlast, htransition⟩ :=
    margins_only_move_findings hfront hback "event A \x7b A->A" 3
  refine ⟨hfront, hback, rfl, ?_, ?_, ?_⟩
  · exact hnames invalidEventNameRule (List.mem_cons_self ..)
  · exact hlast missingBracketRule (List.mem_cons_self ..)
  · exact htransition

end Lint

end Edl
