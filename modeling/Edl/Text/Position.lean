/-
Positions and ranges in a text.

A position is a line number and a character number, both counted from zero; positions are ordered
by line and then by character.  A range is a pair of positions of which the first is not after the
second.  Coordinates from outside may be any integers, so building a position or a range from them
can be refused.

Main definitions:

* `Edl.Text.Position`, `Edl.Text.Range` — the two types, with their orders;
* `Edl.Text.Position.ofInts`, `Edl.Text.Range.between`, `Edl.Text.Range.onLine`,
  `Edl.Text.Range.ofLength` — checked construction;
* `Edl.Text.Range.touches` — whether a position lies in a range or at its end.
-/

import Edl.Fault

set_option relaxedAutoImplicit false
set_option autoImplicit false

namespace Edl.Text

/-! ### Positions -/

/-- A place in a text: line and character, both counted from zero. -/
structure Position where
  line : Nat
  character : Nat
  deriving DecidableEq, Repr

namespace Position

instance : LT Position where
  lt p q := p.line < q.line ∨ (p.line = q.line ∧ p.character < q.character)

instance : LE Position where
  le p q := p.line < q.line ∨ (p.line = q.line ∧ p.character ≤ q.character)

theorem lt_iff {p q : Position} :
    p < q ↔ p.line < q.line ∨ (p.line = q.line ∧ p.character < q.character) :=
  Iff.rfl

theorem le_iff {p q : Position} :
    p ≤ q ↔ p.line < q.line ∨ (p.line = q.line ∧ p.character ≤ q.character) :=
  Iff.rfl

instance (p q : Position) : Decidable (p < q) :=
  decidable_of_iff _ lt_iff.symm

instance (p q : Position) : Decidable (p ≤ q) :=
  decidable_of_iff _ le_iff.symm

theorem le_refl (p : Position) : p ≤ p :=
  le_iff.2 (Or.inr ⟨rfl, Nat.le_refl _⟩)

/-- The position with the given coordinates, which must not be negative. -/
def ofInts (line character : Int) : Except Fault Position :=
  if line < 0 ∨ character < 0 then .error .negativePosition
  else .ok ⟨line.toNat, character.toNat⟩

@[simp] theorem ofInts_natCast (line character : Nat) :
    ofInts line character = .ok ⟨line, character⟩ := by
  have h : ¬((line : Int) < 0 ∨ (character : Int) < 0) := by omega
  simp [ofInts, h]

/-- The written form of a position. -/
def describe (p : Position) : String :=
  "TextPosition(" ++ toString p.line ++ ", " ++ toString p.character ++ ")"

end Position

/-! ### Ranges -/

/-- The characters from `start` up to, and not including, `stop`. -/
structure Range where
  start : Position
  stop : Position
  ordered : start ≤ stop
  deriving DecidableEq

namespace Range

instance : LT Range where
  lt r s := r.start < s.start ∨ (r.start = s.start ∧ r.stop < s.stop)

instance : LE Range where
  le r s := r.start < s.start ∨ (r.start = s.start ∧ r.stop ≤ s.stop)

theorem lt_iff {r s : Range} :
    r < s ↔ r.start < s.start ∨ (r.start = s.start ∧ r.stop < s.stop) :=
  Iff.rfl

theorem le_iff {r s : Range} :
    r ≤ s ↔ r.start < s.start ∨ (r.start = s.start ∧ r.stop ≤ s.stop) :=
  Iff.rfl

instance (r s : Range) : Decidable (r < s) :=
  decidable_of_iff _ lt_iff.symm

instance (r s : Range) : Decidable (r ≤ s) :=
  decidable_of_iff _ le_iff.symm

/-- The range between two positions, which must be in order. -/
def between (start stop : Position) : Except Fault Range :=
  if h : start ≤ stop then .ok ⟨start, stop, h⟩ else .error .reversedRange

/-- The range between two characters of one line. -/
def onLine (line start stop : Int) : Except Fault Range := do
  let first ← Position.ofInts line start
  let last ← Position.ofInts line stop
  between first last

/-- The range of `length` characters from an offset on one line. -/
def ofLength (line offset length : Int) : Except Fault Range :=
  onLine line offset (offset + length)

/-- On a line, an ordered pair of characters always makes a range. -/
theorem onLine_natCast {line start stop : Nat} (h : start ≤ stop) :
    onLine line start stop =
      .ok ⟨⟨line, start⟩, ⟨line, stop⟩, Position.le_iff.2 (Or.inr ⟨rfl, h⟩)⟩ := by
  have hle : (⟨line, start⟩ : Position) ≤ ⟨line, stop⟩ := Position.le_iff.2 (Or.inr ⟨rfl, h⟩)
  simp [onLine, between, hle, bind, Except.bind]

/-- Whether a position lies in the range or just at its end. -/
def touches (r : Range) (p : Position) : Bool :=
  r.start ≤ p && p ≤ r.stop

/-- The ranges in increasing order. -/
def sort (ranges : List Range) : List Range :=
  ranges.mergeSort fun r s => r ≤ s

/-- The written form of a range. -/
def describe (r : Range) : String :=
  "TextRange(" ++ toString r.start.line ++ ":" ++ toString r.start.character ++ ", " ++
    toString r.stop.line ++ ":" ++ toString r.stop.character ++ ")"

end Range

end Edl.Text
