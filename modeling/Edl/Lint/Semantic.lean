/-
Checks of the meaning of a line.

* `Edl.Lint.undefinedEvent` — the first event emitted on the line is a placeholder; only the name
  is looked at, there is no table of symbols behind it;
* `Edl.Lint.selfTransition` — the first transition on the line leads back to the state it leaves.
-/

import Edl.Lint.Syntax

set_option relaxedAutoImplicit false
set_option autoImplicit false

namespace Edl.Lint

open Text

/-! ### Emitted events -/

/-- The name of the event that a call `emit(name` at the start of a text emits. -/
def emittedEvent? (text : List Char) : Option (List Char) :=
  match after? ['e', 'm', 'i', 't'] text with
  | none => none
  | some rest =>
      match trimStart rest with
      | '(' :: arguments =>
          if word (trimStart arguments) = [] then none else some (word (trimStart arguments))
      | _ => none

/-- Placeholders hold the word `undefined` or are `null`. -/
def isPlaceholder (name : List Char) : Bool :=
  occurs ['u', 'n', 'd', 'e', 'f', 'i', 'n', 'e', 'd'] name || name == ['n', 'u', 'l', 'l']

/-- The catalogue entry for a given placeholder. -/
def undefinedEventNamed (name : List Char) : Template :=
  { Catalog.undefinedEvent with
    message := Catalog.undefinedEvent.message ++ ": " ++ String.ofList name }

/-- The first emitted event is a placeholder. -/
def undefinedEvent : Check :=
  .ofName emittedEvent? isPlaceholder undefinedEventNamed

/-! ### Transitions -/

/-- The two states of a transition `left -> right` at the start of a text. -/
def transition? (text : List Char) : Option (List Char × List Char) :=
  if word text = [] then none
  else
    match after? ['-', '>'] (trimStart (text.dropWhile isWordChar)) with
    | none => none
    | some rest =>
        if word (trimStart rest) = [] then none else some (word text, word (trimStart rest))

/-- The first transition leads back to the state that it leaves. -/
def selfTransition : Check := fun line =>
  match firstMatch transition? line with
  | none => .ok none
  | some (left, right) =>
      if left = right then .ok (some (.onAll Catalog.selfTransition line)) else .ok none

end Edl.Lint
