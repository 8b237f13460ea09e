/-
The causes for which an operation is refused.

Every operation that can fail does so with one `Fault`, which names the cause and carries what the
message needs; the wording is in one place, `Fault.message`, and so is the class under which whoever
called is told, `Fault.kind`.  A rule or a listener supplied from outside may fail for reasons of
its own, which are passed on as `Fault.raised`.
-/

import Edl.Config.Value

set_option relaxedAutoImplicit false
set_option autoImplicit false

namespace Edl

/-- Why an operation was refused. -/
inductive Fault where
  | negativePosition
  | reversedRange
  | lineOutside (line : Int) (uri : String) (lineCount : Nat)
  | textNotFound
  | invalidDomain (rule domain : String)
  | invalidConfidence (rule confidence : String)
  | invalidCode (rule code : String)
  | duplicateRule (rule : String)
  | settingNotBool (key : String) (value : Config.Value)
  | documentOpen (uri : String)
  | documentNotOpen (uri : String)
  | commandTaken (name : String)
  | commandUnknown (name : String)
  | collectionDisposed (name : String)
  | nullInName
  | levelMissing
  | raised (text : String)

/-- The message that goes with a fault. -/
def Fault.message : Fault → String
  | .negativePosition => "TextPosition cannot be negative"
  | .reversedRange => "TextRange invariant violated: start > end"
  | .lineOutside line uri lineCount =>
      s!"Line {line} is outside document `{uri}` ({lineCount} lines)"
  | .textNotFound => "substring not found"
  | .invalidDomain rule domain =>
      s!"Lint rule `{rule}` has invalid domain `{domain}`; expected syntax/semantic/style."
  | .invalidConfidence rule confidence =>
      s!"Lint rule `{rule}` has invalid confidence `{confidence}`; expected policy/heuristic."
  | .invalidCode rule code =>
      s!"Lint rule `{rule}` has invalid code `{code}`; expected lowercase kebab-case."
  | .duplicateRule rule => s!"Lint rule `{rule}` is registered more than once."
  | .settingNotBool key value =>
      s!"Setting `edl.{key}` must be a bool, got " ++ value.describe
  | .documentOpen uri => s!"Document `{uri}` is already open"
  | .documentNotOpen uri => s!"Document `{uri}` is not open"
  | .commandTaken name => s!"Command `{name}` is already registered"
  | .commandUnknown name => s!"Command `{name}` is not registered"
  | .collectionDisposed name => s!"DiagnosticCollection `{name}` is disposed"
  | .nullInName => "embedded null byte"
  | .levelMissing => "attribute name must be string, not 'list'"
  | .raised text => text

/-- The class of a fault. -/
def Fault.kind : Fault → String
  | .documentNotOpen _ | .commandUnknown _ => "KeyError"
  | .collectionDisposed _ | .raised _ => "RuntimeError"
  | .levelMissing => "TypeError"
  | .negativePosition | .reversedRange | .lineOutside .. | .textNotFound | .invalidDomain ..
  | .invalidConfidence .. | .invalidCode .. | .duplicateRule _ | .settingNotBool ..
  | .documentOpen _ | .commandTaken _ | .nullInName => "ValueError"

end Edl
