/-
Lists of rules.

A rule list is used only after it has been checked: every rule must have a known domain, a known
confidence and a code in lower-case kebab case, and no two rules may share a name.  The first rule
that breaks one of these conditions is the one that is blamed, for the first condition it breaks.

Main definitions:

* `Edl.Lint.defaultRules` — the built-in rules, by domain;
* `Edl.Lint.checkRules` — the check of a rule list.
-/

import Edl.Lint.Semantic
import Edl.Lint.Style
import Edl.Text.Lines

set_option relaxedAutoImplicit false
set_option autoImplicit false

namespace Edl.Lint

/-! ### The built-in rules -/

/-- Lines open no more blocks than they close. -/
def missingBracketRule : Rule :=
  .ofCheck "missing-bracket" "syntaxMissingClosingBracket" "syntax" "heuristic" missingBracket

/-- Declared events have names in lower case. -/
def invalidEventNameRule : Rule :=
  .ofCheck "invalid-event-name" "syntaxInvalidEventName" "syntax" "policy" invalidEventName

/-- Statements are terminated. -/
def missingSemicolonRule : Rule :=
  .ofCheck "missing-semicolon" "syntaxMissingSemicolon" "syntax" "policy" missingSemicolon

/-- Emitted events are no placeholders. -/
def undefinedEventRule : Rule :=
  .ofCheck "undefined-event" "semanticUndefinedEvent" "semantic" "heuristic" undefinedEvent

/-- Transitions lead to another state. -/
def selfTransitionRule : Rule :=
  .ofCheck "self-transition" "semanticSelfTransition" "semantic" "policy" selfTransition

/-- Lines have at most `limit` characters. -/
def lineTooLongRule (limit : Int := maxLineLength) : Rule :=
  .ofCheck "line-too-long" "styleLineTooLong" "style" "policy" (lineTooLong limit)

/-- Indentation does not mix tabulators and spaces. -/
def mixedIndentationRule : Rule :=
  .ofCheck "mixed-indentation" "styleMixedIndentation" "style" "policy" mixedIndentation

/-- Lines do not end in blanks. -/
def trailingWhitespaceRule : Rule :=
  .ofCheck "trailing-whitespace" "styleTrailingWhitespace" "style" "policy" trailingWhitespace

/-- The built-in rules in the order in which they report: syntax, semantics, style. -/
def defaultRules : List Rule :=
  [missingBracketRule, invalidEventNameRule, missingSemicolonRule, undefinedEventRule,
   selfTransitionRule, lineTooLongRule, mixedIndentationRule, trailingWhitespaceRule]

/-! ### Checking a list -/

/-- The domains that a rule may have. -/
def domains : List String :=
  ["syntax", "semantic", "style"]

/-- The confidences that a rule may have. -/
def confidences : List String :=
  ["policy", "heuristic"]

/-- Kebab case: pieces of lower-case letters, none empty, with single hyphens between them. -/
def isKebab (code : List Char) : Bool :=
  (Text.cutAt '-' code).all fun piece => piece != [] && piece.all Char.isLower

/-- The conditions on one rule, given the names of the rules before it. -/
def checkRule (seen : List String) (rule : Rule) : Except Fault Unit :=
  if rule.domain ∉ domains then .error (.invalidDomain rule.name rule.domain)
  else if rule.confidence ∉ confidences then
    .error (.invalidConfidence rule.name rule.confidence)
  else if !isKebab rule.code.toList then .error (.invalidCode rule.name rule.code)
  else if rule.name ∈ seen then .error (.duplicateRule rule.name)
  else .ok ()

/-- The conditions on every rule of a list, given the names of the rules before it. -/
def checkRulesAfter (seen : List String) : List Rule → Except Fault Unit
  | [] => .ok ()
  | rule :: rules => do
      checkRule seen rule
      checkRulesAfter (rule.name :: seen) rules

/-- The check of a rule list; it fails for the first rule that breaks a condition. -/
def checkRules (rules : List Rule) : Except Fault Unit :=
  checkRulesAfter [] rules

example : isKebab ['a', '-', 'b', 'c'] = true := by decide
example : isKebab ['a', '-', '-', 'b'] = false := by decide
example : isKebab [] = false := by decide

end Edl.Lint
