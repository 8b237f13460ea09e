/-
Which rule of a list is blamed, and for what.

A rule list is checked from its first rule to its last, and each rule for four conditions in turn;
the last of them compares the name of the rule with the names before it.  The first condition that
fails decides.  So a list passes if every rule has a known domain, a known confidence and a code in
kebab case, and no name occurs twice; otherwise the rule of least place that breaks a condition is
blamed, for the first condition that it breaks, and a repeated name is blamed on its later place.

A code is in kebab case if it is made of words of small letters with single hyphens between them.
That is the language of the regular expression `[a-z]+(-[a-z]+)*`.

Main definitions:

* `Edl.Lint.Kebab`, `Edl.Lint.kebabPattern` — kebab case, told by pieces and as a regular language;
* `Edl.Lint.Rule.Admissible` — the conditions on a rule by itself;
* `Edl.Lint.Offence`, `Edl.Lint.OffendsAt` — what a rule is blamed for, and at which place.

Main results:

* `Edl.Lint.isKebab_iff`, `Edl.Lint.kebab_iff_mem_kebabPattern` — kebab case three ways;
* `Edl.Lint.checkRules_eq_ok_iff` — which lists pass;
* `Edl.Lint.checkRulesAfter_eq_error_iff` — which rule is blamed;
* `Edl.Lint.validation_blames_the_first_offender` — **the check of a rule list**, and what it means
  for linting.
-/

import Mathlib.Computability.Language
import Edl.Proofs.Attribution
import Edl.Proofs.Lines

set_option relaxedAutoImplicit false
set_option autoImplicit false

namespace Edl.Lint

open Text

/-! ### Kebab case -/

/-- One small letter or more. -/
def Piece (piece : List Char) : Prop :=
  piece ≠ [] ∧ ∀ c ∈ piece, 'a' ≤ c ∧ c ≤ 'z'

/-- The code is a sequence of pieces, at least one, with single hyphens between them. -/
def Kebab (code : String) : Prop :=
  ∃ pieces : List String, pieces ≠ [] ∧ (∀ piece ∈ pieces, Piece piece.toList) ∧
    code = "-".intercalate pieces

theorem isLower_iff {c : Char} : c.isLower = true ↔ 'a' ≤ c ∧ c ≤ 'z' := by
  change (decide (c.val ≥ 'a'.val) && decide (c.val ≤ 'z'.val)) = true ↔ _
  rw [Bool.and_eq_true, decide_eq_true_eq, decide_eq_true_eq]
  rfl

theorem piece_iff {piece : List Char} :
    Piece piece ↔ (piece != [] && piece.all Char.isLower) = true := by
  simp only [Piece, Bool.and_eq_true, bne_iff_ne, List.all_eq_true, isLower_iff]

theorem Piece.not_mem {piece : List Char} (h : Piece piece) : '-' ∉ piece := by
  intro hmem
  exact absurd (h.2 '-' hmem) (by decide)

/-- Kebab case, told about characters. -/
theorem kebab_iff_glueWith {code : String} :
    Kebab code ↔ ∃ pieces : List (List Char), pieces ≠ [] ∧ (∀ piece ∈ pieces, Piece piece) ∧
      code.toList = glueWith '-' pieces := by
  constructor
  · intro h
    obtain ⟨pieces, hne, hpieces, rfl⟩ := h
    refine ⟨pieces.map String.toList, by simpa using hne, ?_, ?_⟩
    · intro piece hpiece
      obtain ⟨text, htext, rfl⟩ := List.mem_map.1 hpiece
      exact hpieces text htext
    · rw [String.toList_intercalate, glueWith_eq_intercalate]
      rfl
  · intro h
    obtain ⟨pieces, hne, hpieces, hcode⟩ := h
    refine ⟨pieces.map String.ofList, by simpa using hne, ?_, ?_⟩
    · intro piece hpiece
      obtain ⟨chars, hchars, rfl⟩ := List.mem_map.1 hpiece
      simpa using hpieces chars hchars
    · apply String.toList_inj.1
      rw [hcode, String.toList_intercalate, glueWith_eq_intercalate]
      simp [Function.comp_def]

/-- A code is in kebab case if its stretches between hyphens are pieces. -/
theorem kebab_iff_cutAt {code : String} :
    Kebab code ↔ ∀ piece ∈ cutAt '-' code.toList, Piece piece := by
  rw [kebab_iff_glueWith]
  constructor
  · intro h
    obtain ⟨pieces, hne, hpieces, hcode⟩ := h
    rw [hcode, cutAt_glueWith hne fun piece hpiece => (hpieces piece hpiece).not_mem]
    exact hpieces
  · intro h
    exact ⟨cutAt '-' code.toList, cutAt_ne_nil '-' code.toList, h,
      (glueWith_cutAt '-' code.toList).symm⟩

theorem isKebab_iff {code : String} : isKebab code.toList = true ↔ Kebab code := by
  simp only [isKebab, List.all_eq_true, ← piece_iff, kebab_iff_cutAt]

/-! ### Kebab case as a regular language -/

open Computability

/-- One small letter: `[a-z]`. -/
def smallLetter : Language Char :=
  fun text => ∃ c, ('a' ≤ c ∧ c ≤ 'z') ∧ text = [c]

/-- One small letter or more: `[a-z]+`. -/
def smallLetters : Language Char :=
  smallLetter * smallLetter∗

/-- The regular language of kebab case: `[a-z]+(-[a-z]+)*`. -/
def kebabPattern : Language Char :=
  smallLetters * ({['-']} * smallLetters)∗

theorem mem_smallLetter_kstar {text : List Char} :
    text ∈ smallLetter∗ ↔ ∀ c ∈ text, 'a' ≤ c ∧ c ≤ 'z' := by
  rw [Language.mem_kstar]
  constructor
  · intro h c hc
    obtain ⟨parts, rfl, hparts⟩ := h
    obtain ⟨part, hpart, hmem⟩ := List.mem_flatten.1 hc
    obtain ⟨d, hd, rfl⟩ := hparts part hpart
    rw [List.mem_singleton] at hmem
    rwa [hmem]
  · intro h
    refine ⟨text.map fun c => [c], ?_, ?_⟩
    · induction text with
      | nil => rfl
      | cons c text ih => simp [← ih fun d hd => h d (List.mem_cons_of_mem c hd)]
    · intro part hpart
      obtain ⟨c, hc, rfl⟩ := List.mem_map.1 hpart
      exact ⟨c, h c hc, rfl⟩

theorem mem_smallLetters {text : List Char} : text ∈ smallLetters ↔ Piece text := by
  rw [smallLetters, Language.mem_mul]
  constructor
  · intro h
    obtain ⟨first, ⟨c, hc, rfl⟩, rest, hrest, rfl⟩ := h
    refine ⟨by simp, ?_⟩
    rw [List.singleton_append, List.forall_mem_cons]
    exact ⟨hc, mem_smallLetter_kstar.1 hrest⟩
  · intro h
    obtain ⟨hne, hall⟩ := h
    cases text with
    | nil => exact absurd rfl hne
    | cons c rest =>
        rw [List.forall_mem_cons] at hall
        exact ⟨[c], ⟨c, hall.1, rfl⟩, rest, mem_smallLetter_kstar.2 hall.2, rfl⟩

theorem mem_hyphen_mul {text : List Char} :
    text ∈ ({['-']} * smallLetters : Language Char) ↔
      ∃ piece, Piece piece ∧ text = '-' :: piece := by
  rw [Language.mem_mul]
  constructor
  · intro h
    obtain ⟨hyphen, rfl, piece, hpiece, rfl⟩ := h
    exact ⟨piece, mem_smallLetters.1 hpiece, rfl⟩
  · intro h
    obtain ⟨piece, hpiece, rfl⟩ := h
    exact ⟨['-'], rfl, piece, mem_smallLetters.2 hpiece, rfl⟩

theorem glueWith_cons_eq_append (separator : Char) (first : List Char) (rest : List (List Char)) :
    glueWith separator (first :: rest) =
      first ++ (rest.map fun piece => separator :: piece).flatten := by
  induction rest generalizing first with
  | nil => simp [glueWith]
  | cons next rest ih => simp [glueWith, ih next]

/-- The pieces with hyphens between them are the language of the regular expression. -/
theorem kebab_iff_mem_kebabPattern {code : String} : Kebab code ↔ code.toList ∈ kebabPattern := by
  rw [kebab_iff_glueWith, kebabPattern, Language.mem_mul]
  constructor
  · intro h
    obtain ⟨pieces, hne, hpieces, hcode⟩ := h
    obtain ⟨first, rest, rfl⟩ := List.exists_cons_of_ne_nil hne
    rw [List.forall_mem_cons] at hpieces
    rw [glueWith_cons_eq_append] at hcode
    refine ⟨first, mem_smallLetters.2 hpieces.1, _, Language.mem_kstar.2 ⟨_, rfl, ?_⟩, hcode.symm⟩
    intro part hpart
    obtain ⟨piece, hpiece, rfl⟩ := List.mem_map.1 hpart
    exact mem_hyphen_mul.2 ⟨piece, hpieces.2 piece hpiece, rfl⟩
  · intro h
    obtain ⟨first, hfirst, tail, htail, hcode⟩ := h
    obtain ⟨parts, rfl, hparts⟩ := Language.mem_kstar.1 htail
    -- each repetition is a hyphen and a piece, so its tail is the piece
    have hrest : (parts.map List.tail).map (fun piece => '-' :: piece) = parts := by
      rw [List.map_map]
      refine (List.map_congr_left fun part hpart => ?_).trans (List.map_id parts)
      obtain ⟨piece, -, rfl⟩ := mem_hyphen_mul.1 (hparts part hpart)
      rfl
    refine ⟨first :: parts.map List.tail, by simp, ?_, ?_⟩
    · rw [List.forall_mem_cons]
      refine ⟨mem_smallLetters.1 hfirst, fun piece hpiece => ?_⟩
      obtain ⟨part, hpart, rfl⟩ := List.mem_map.1 hpiece
      obtain ⟨word, hword, rfl⟩ := mem_hyphen_mul.1 (hparts part hpart)
      exact hword
    · rw [glueWith_cons_eq_append, hrest, hcode]

/-! ### One rule -/

/-- The conditions on a rule by itself. -/
structure Rule.Admissible (rule : Rule) : Prop where
  domain : rule.domain ∈ ["syntax", "semantic", "style"]
  confidence : rule.confidence ∈ ["policy", "heuristic"]
  code : Kebab rule.code

/-- What a rule is blamed for, behind rules with the given names: the first condition that it
breaks. -/
inductive Offence (seen : List String) (rule : Rule) : Fault → Prop
  | domain : rule.domain ∉ ["syntax", "semantic", "style"] →
      Offence seen rule (.invalidDomain rule.name rule.domain)
  | confidence : rule.domain ∈ ["syntax", "semantic", "style"] →
      rule.confidence ∉ ["policy", "heuristic"] →
      Offence seen rule (.invalidConfidence rule.name rule.confidence)
  | code : rule.domain ∈ ["syntax", "semantic", "style"] →
      rule.confidence ∈ ["policy", "heuristic"] → ¬Kebab rule.code →
      Offence seen rule (.invalidCode rule.name rule.code)
  | name : rule.Admissible → rule.name ∈ seen → Offence seen rule (.duplicateRule rule.name)

/-- Only which names were seen matters, not in which order. -/
theorem Offence.congr {seen seen' : List String} (h : ∀ name, name ∈ seen ↔ name ∈ seen')
    {rule : Rule} {f : Fault} : Offence seen rule f ↔ Offence seen' rule f := by
  have hmono : ∀ {s s' : List String}, (∀ name, name ∈ s → name ∈ s') →
      Offence s rule f → Offence s' rule f := by
    intro s s' hsub hoffence
    cases hoffence with
    | domain hd => exact .domain hd
    | confidence hd hc => exact .confidence hd hc
    | code hd hc hk => exact .code hd hc hk
    | name hadmissible hmem => exact .name hadmissible (hsub _ hmem)
  exact ⟨hmono fun name => (h name).1, hmono fun name => (h name).2⟩

section

variable {seen : List String} {rule : Rule} {f : Fault}

/-- A rule is blamed for something, or nothing is wrong with it. -/
theorem offence_or_admissible (seen : List String) (rule : Rule) :
    (∃ f, Offence seen rule f) ∨ rule.Admissible ∧ rule.name ∉ seen := by
  by_cases hdomain : rule.domain ∈ ["syntax", "semantic", "style"]
  · by_cases hconfidence : rule.confidence ∈ ["policy", "heuristic"]
    · by_cases hcode : Kebab rule.code
      · by_cases hname : rule.name ∈ seen
        · exact .inl ⟨_, .name ⟨hdomain, hconfidence, hcode⟩ hname⟩
        · exact .inr ⟨⟨hdomain, hconfidence, hcode⟩, hname⟩
      · exact .inl ⟨_, .code hdomain hconfidence hcode⟩
    · exact .inl ⟨_, .confidence hdomain hconfidence⟩
  · exact .inl ⟨_, .domain hdomain⟩

theorem checkRule_of_admissible (h : rule.Admissible) :
    checkRule seen rule =
      if rule.name ∈ seen then .error (.duplicateRule rule.name) else .ok () := by
  rw [checkRule, domains, confidences, if_neg (not_not_intro h.domain),
    if_neg (not_not_intro h.confidence), if_neg (by simp [isKebab_iff.2 h.code])]

theorem checkRule_of_offence (h : Offence seen rule f) : checkRule seen rule = .error f := by
  cases h with
  | domain hdomain => rw [checkRule, domains, if_pos hdomain]
  | confidence hdomain hconfidence =>
      rw [checkRule, domains, confidences, if_neg (not_not_intro hdomain), if_pos hconfidence]
  | code hdomain hconfidence hcode =>
      have hkebab : (!isKebab rule.code.toList) = true := by
        rw [Bool.not_eq_true', ← Bool.not_eq_true, isKebab_iff]
        exact hcode
      rw [checkRule, domains, confidences, if_neg (not_not_intro hdomain),
        if_neg (not_not_intro hconfidence), if_pos hkebab]
  | name hadmissible hname => rw [checkRule_of_admissible hadmissible, if_pos hname]

theorem checkRule_eq_ok_iff :
    checkRule seen rule = .ok () ↔ rule.Admissible ∧ rule.name ∉ seen := by
  constructor
  · intro h
    rcases offence_or_admissible seen rule with ⟨f, hoffence⟩ | hfine
    · cases h.symm.trans (checkRule_of_offence hoffence)
    · exact hfine
  · intro h
    rw [checkRule_of_admissible h.1, if_neg h.2]

theorem checkRule_eq_error_iff : checkRule seen rule = .error f ↔ Offence seen rule f := by
  constructor
  · intro h
    rcases offence_or_admissible seen rule with ⟨g, hoffence⟩ | hfine
    · obtain rfl := Except.error.inj (h.symm.trans (checkRule_of_offence hoffence))
      exact hoffence
    · cases h.symm.trans (checkRule_eq_ok_iff.2 hfine)
  · exact checkRule_of_offence

end

/-! ### Lists of rules -/

/-- The rule at a place of the list is blamed, behind rules with the given names and the rules
before it. -/
def OffendsAt (seen : List String) (rules : List Rule) (place : Nat) (f : Fault) : Prop :=
  ∃ rule, rules[place]? = some rule ∧
    Offence (seen ++ (rules.take place).map Rule.name) rule f

section

variable {seen : List String} {rule : Rule} {rules : List Rule} {f : Fault}

theorem offendsAt_zero : OffendsAt seen (rule :: rules) 0 f ↔ Offence seen rule f := by
  simp [OffendsAt]

theorem offendsAt_succ {place : Nat} :
    OffendsAt seen (rule :: rules) (place + 1) f ↔
      OffendsAt (rule.name :: seen) rules place f := by
  have hsame : ∀ name, name ∈ seen ++ rule.name :: (rules.take place).map Rule.name ↔
      name ∈ rule.name :: seen ++ (rules.take place).map Rule.name := by
    intro name
    simp only [List.mem_append, List.mem_cons]
    tauto
  simp only [OffendsAt, List.getElem?_cons_succ, List.take_succ_cons, List.map_cons,
    Offence.congr hsame]

theorem checkRulesAfter_cons :
    checkRulesAfter seen (rule :: rules) = .ok () ↔
      checkRule seen rule = .ok () ∧ checkRulesAfter (rule.name :: seen) rules = .ok () := by
  rw [checkRulesAfter]
  cases checkRule seen rule <;> simp [bind, Except.bind]

/-- A list passes if each of its rules is admissible and has a name of its own. -/
theorem checkRulesAfter_eq_ok_iff :
    checkRulesAfter seen rules = .ok () ↔
      (∀ rule ∈ rules, rule.Admissible) ∧ (rules.map Rule.name).Nodup ∧
        ∀ rule ∈ rules, rule.name ∉ seen := by
  induction rules generalizing seen with
  | nil => simp [checkRulesAfter]
  | cons rule rules ih =>
      rw [checkRulesAfter_cons, checkRule_eq_ok_iff, ih, List.map_cons, List.nodup_cons,
        List.forall_mem_cons, List.forall_mem_cons]
      constructor
      · intro h
        obtain ⟨⟨hrule, hname⟩, hrules, hnodup, hseen⟩ := h
        refine ⟨⟨hrule, hrules⟩, ⟨?_, hnodup⟩, hname, fun other hother => ?_⟩
        · intro hmem
          obtain ⟨other, hother, heq⟩ := List.mem_map.1 hmem
          exact hseen other hother (heq ▸ List.mem_cons_self)
        · exact fun hmem => hseen other hother (List.mem_cons_of_mem _ hmem)
      · intro h
        obtain ⟨⟨hrule, hrules⟩, ⟨hfresh, hnodup⟩, hname, hseen⟩ := h
        refine ⟨⟨hrule, hname⟩, hrules, hnodup, fun other hother hmem => ?_⟩
        rcases List.mem_cons.1 hmem with heq | hmem
        · exact hfresh (heq ▸ List.mem_map_of_mem hother)
        · exact hseen other hother hmem

/-- The list is refused for the rule of least place that is to be blamed. -/
theorem checkRulesAfter_eq_error_iff :
    checkRulesAfter seen rules = .error f ↔
      ∃ place, OffendsAt seen rules place f ∧
        ∀ earlier < place, ∀ g, ¬OffendsAt seen rules earlier g := by
  induction rules generalizing seen with
  | nil => simp [checkRulesAfter, OffendsAt]
  | cons rule rules ih =>
      cases hrule : checkRule seen rule with
      | error g =>
          have hfirst : OffendsAt seen (rule :: rules) 0 g :=
            offendsAt_zero.2 (checkRule_eq_error_iff.1 hrule)
          rw [checkRulesAfter, hrule]
          constructor
          · intro h
            obtain rfl : g = f := Except.error.inj h
            exact ⟨0, hfirst, fun earlier hlt => absurd hlt (Nat.not_lt_zero earlier)⟩
          · intro h
            obtain ⟨place, hplace, hleast⟩ := h
            cases place with
            | zero =>
                rw [offendsAt_zero, ← checkRule_eq_error_iff, hrule] at hplace
                exact hplace
            | succ place => exact absurd hfirst (hleast 0 (Nat.succ_pos place) g)
      | ok _ =>
          have hfirst : ∀ g, ¬OffendsAt seen (rule :: rules) 0 g := by
            intro g hoffends
            rw [offendsAt_zero, ← checkRule_eq_error_iff, hrule] at hoffends
            cases hoffends
          have hrest : checkRulesAfter seen (rule :: rules) =
              checkRulesAfter (rule.name :: seen) rules := by
            rw [checkRulesAfter, hrule]
            rfl
          rw [hrest, ih]
          constructor
          · intro h
            obtain ⟨place, hplace, hleast⟩ := h
            refine ⟨place + 1, offendsAt_succ.2 hplace, fun earlier hlt g => ?_⟩
            cases earlier with
            | zero => exact hfirst g
            | succ earlier =>
                rw [offendsAt_succ]
                exact hleast earlier (by omega) g
          · intro h
            obtain ⟨place, hplace, hleast⟩ := h
            cases place with
            | zero => exact absurd hplace (hfirst f)
            | succ place =>
                refine ⟨place, offendsAt_succ.1 hplace, fun earlier hlt g => ?_⟩
                rw [← offendsAt_succ]
                exact hleast (earlier + 1) (by omega) g

end

theorem checkRules_eq_ok_iff {rules : List Rule} :
    checkRules rules = .ok () ↔
      (∀ rule ∈ rules, rule.Admissible) ∧ (rules.map Rule.name).Nodup := by
  rw [checkRules, checkRulesAfter_eq_ok_iff]
  simp

theorem checkRules_perm {rules other : List Rule} (h : other.Perm rules) :
    checkRules other = .ok () ↔ checkRules rules = .ok () := by
  simp only [checkRules_eq_ok_iff, (h.map Rule.name).nodup_iff, h.mem_iff]

/-- The rules that are the given ones but for what they do. -/
def withActs (act : Rule → String → Int → Except Fault (List Diagnostic)) (rules : List Rule) :
    List Rule :=
  rules.map fun rule => { rule with run := act rule }

/-- The check does not look at what the rules do. -/
theorem checkRulesAfter_withActs (act : Rule → String → Int → Except Fault (List Diagnostic))
    (seen : List String) (rules : List Rule) :
    checkRulesAfter seen (withActs act rules) = checkRulesAfter seen rules := by
  induction rules generalizing seen with
  | nil => rfl
  | cons rule rules ih =>
      have hrest := ih (rule.name :: seen)
      rw [withActs] at hrest
      rw [withActs, List.map_cons, checkRulesAfter, checkRulesAfter, hrest]
      rfl

/-- Whether linting succeeds does not depend on the order of the rules. -/
theorem exists_run_perm {text : String} {settings : Config.Settings} {rules other : List Rule}
    (h : other.Perm rules) :
    (∃ o, run text settings other = .ok o) ↔ ∃ o, run text settings rules = .ok o := by
  simp only [run_eq_ok_iff, checkRules_perm h, h.mem_iff, exists_and_left, exists_eq, and_true]

/-! ### The check and linting -/

/-- **The check of a rule list blames the first offender.**  A list passes exactly if every rule has
a known domain, a known confidence and a code in kebab case, which is the language of a regular
expression, and no name occurs twice.  A list is refused for the rule of least place that breaks a
condition, and for the first condition that it breaks; a repeated name counts against its later
place.  With linting switched on, a text is then refused with the same fault, whatever the text is
and whatever the rules would do; whether linting succeeds does not depend on the order of the rules.
With linting switched off no list is refused. -/
theorem validation_blames_the_first_offender (rules : List Rule) :
    (checkRules rules = .ok () ↔
      (∀ rule ∈ rules, rule.domain ∈ ["syntax", "semantic", "style"] ∧
        rule.confidence ∈ ["policy", "heuristic"] ∧ Kebab rule.code) ∧
      (rules.map Rule.name).Nodup) ∧
    (∀ code : String, Kebab code ↔ code.toList ∈ kebabPattern) ∧
    (∀ f, checkRules rules = .error f ↔
      ∃ place, OffendsAt [] rules place f ∧
        ∀ earlier < place, ∀ g, ¬OffendsAt [] rules earlier g) ∧
    (∀ (text : String) (settings : Config.Settings) (f : Fault), settings.linting = true →
      checkRules rules = .error f → ∀ act, run text settings (withActs act rules) = .error f) ∧
    (∀ other, other.Perm rules →
      (checkRules other = .ok () ↔ checkRules rules = .ok ()) ∧
      ∀ (text : String) (settings : Config.Settings),
        (∃ o, run text settings other = .ok o) ↔ ∃ o, run text settings rules = .ok o) ∧
    ∀ (text : String) (settings : Config.Settings), settings.linting = false →
      ∃ o, run text settings rules = .ok o := by
  refine ⟨?_, fun code => kebab_iff_mem_kebabPattern, fun f => checkRulesAfter_eq_error_iff, ?_, ?_,
    ?_⟩
  · rw [checkRules_eq_ok_iff]
    refine and_congr_left' (forall₂_congr fun rule _ => ?_)
    exact ⟨fun h => ⟨h.domain, h.confidence, h.code⟩, fun h => ⟨h.1, h.2.1, h.2.2⟩⟩
  · intro text settings f hlinting hcheck act
    refine run_of_refused hlinting ?_
    rw [checkRules, checkRulesAfter_withActs]
    exact hcheck
  · intro other hperm
    exact ⟨checkRules_perm hperm, fun text settings => exists_run_perm hperm⟩
  · intro text settings hlinting
    exact ⟨_, run_of_not_linting hlinting rules text⟩

/-- The second rule repeats a name, but its code is blamed; the third is worse and never reached. -/
theorem validation_blames_the_first_offender_code :
    let rules : List Rule := [lineTooLongRule, { lineTooLongRule with code := "line--long" },
      { lineTooLongRule with domain := "layout" }]
    checkRules rules = .error (.invalidCode "styleLineTooLong" "line--long") ∧
      (∃ place, OffendsAt [] rules place (.invalidCode "styleLineTooLong" "line--long")) ∧
      ({} : Config.Settings).linting = true ∧
      run "x" {} (withActs (fun _ _ _ => .error (.raised "boom")) rules) =
        .error (.invalidCode "styleLineTooLong" "line--long") ∧
      ({ linting := false } : Config.Settings).linting = false ∧
      (∃ o, run "x" { linting := false } rules = .ok o) ∧
      rules.reverse.Perm rules ∧ checkRules rules.reverse ≠ .ok () := by
  intro rules
  have hcheck : checkRules rules = .error (.invalidCode "styleLineTooLong" "line--long") := rfl
  obtain ⟨-, -, hblame, hrefuse, horder, hoff⟩ := validation_blames_the_first_offender rules
  obtain ⟨place, hplace, -⟩ := (hblame _).1 hcheck
  refine ⟨hcheck, ⟨place, hplace⟩, rfl, hrefuse "x" {} _ rfl hcheck _, rfl,
    hoff "x" { linting := false } rfl, rules.reverse_perm, ?_⟩
  rw [Ne, (horder _ rules.reverse_perm).1, hcheck]
  nofun

example : checkRules [lineTooLongRule, trailingWhitespaceRule, lineTooLongRule 80] =
    .error (.duplicateRule "styleLineTooLong") := by
  rfl

end Edl.Lint
