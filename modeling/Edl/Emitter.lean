/-
Lists of listeners.

An emitter keeps its listeners in the order in which they subscribed; a listener may be there
several times.  Releasing a listener takes away its first occurrence.

Main definitions:

* `Edl.Emitter` — the listeners;
* `Edl.Emitter.subscribe`, `Edl.Emitter.release`, `Edl.Emitter.clear`, `Edl.Emitter.count`;
* `Edl.Subscription` — a handle that releases what it stands for once.
-/

set_option relaxedAutoImplicit false
set_option autoImplicit false

namespace Edl

/-- The listeners of one kind of event, in order of subscription. -/
structure Emitter (ι : Type) where
  listeners : List ι := []

namespace Emitter

variable {ι : Type}

instance : Inhabited (Emitter ι) := ⟨{}⟩

/-- The emitter with one listener more, at the end. -/
def subscribe (e : Emitter ι) (l : ι) : Emitter ι :=
  ⟨e.listeners ++ [l]⟩

/-- The emitter without the first occurrence of a listener. -/
def release [BEq ι] (e : Emitter ι) (l : ι) : Emitter ι :=
  ⟨e.listeners.erase l⟩

/-- The emitter without listeners. -/
def clear (_ : Emitter ι) : Emitter ι :=
  {}

/-- The number of listeners. -/
def count (e : Emitter ι) : Nat :=
  e.listeners.length

@[simp] theorem listeners_subscribe (e : Emitter ι) (l : ι) :
    (e.subscribe l).listeners = e.listeners ++ [l] := rfl

@[simp] theorem listeners_release [BEq ι] (e : Emitter ι) (l : ι) :
    (e.release l).listeners = e.listeners.erase l := rfl

@[simp] theorem listeners_clear (e : Emitter ι) : e.clear.listeners = [] := rfl

end Emitter

/-- A handle for a registration, which is gone once it has been released. -/
structure Subscription (ρ : Type) where
  registration : Option ρ := none

namespace Subscription

variable {ρ : Type}

/-- Whether nothing is left to release. -/
def disposed (s : Subscription ρ) : Bool :=
  s.registration.isNone

/-- The handle after its disposal. -/
def dispose (_ : Subscription ρ) : Subscription ρ :=
  {}

end Subscription

end Edl
