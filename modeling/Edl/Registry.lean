/-
Numbered registries.

Things that live as long as a session and are referred to from several places are kept in a
registry: each is given the next number when it is added, and the number stays its own.  Nothing
is ever taken out, so a number once given always leads to its thing.

Main definitions:

* `Edl.Registry` — the type;
* `Edl.Registry.add`, `Edl.Registry.get?`, `Edl.Registry.modify` — its operations.
-/

set_option relaxedAutoImplicit false
set_option autoImplicit false

namespace Edl

/-- Things numbered in the order in which they were added. -/
structure Registry (α : Type) where
  items : List α := []

namespace Registry

variable {α : Type}

instance : Inhabited (Registry α) := ⟨{}⟩

/-- The number that the next thing will be given. -/
def next (r : Registry α) : Nat :=
  r.items.length

/-- The registry with one thing more, under the number `r.next`. -/
def add (r : Registry α) (a : α) : Registry α :=
  ⟨r.items ++ [a]⟩

/-- The thing under a number. -/
def get? (r : Registry α) (n : Nat) : Option α :=
  r.items[n]?

/-- The registry with the thing under a number changed. -/
def modify (r : Registry α) (n : Nat) (f : α → α) : Registry α :=
  ⟨r.items.modify n f⟩

@[simp] theorem get?_add_next (r : Registry α) (a : α) : (r.add a).get? r.next = some a := by
  simp [add, get?, next]

theorem get?_add_of_lt {r : Registry α} {a : α} {n : Nat} (h : n < r.next) :
    (r.add a).get? n = r.get? n := by
  simp only [next] at h
  simp [add, get?, List.getElem?_append_left h]

@[simp] theorem get?_modify_self (r : Registry α) (n : Nat) (f : α → α) :
    (r.modify n f).get? n = (r.get? n).map f := by
  simp [modify, get?]

theorem get?_modify_of_ne {r : Registry α} {n m : Nat} {f : α → α} (h : n ≠ m) :
    (r.modify n f).get? m = r.get? m := by
  simp [modify, get?, h]

end Registry

end Edl
