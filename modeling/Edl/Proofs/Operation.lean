/-
Reasoning about the operations of a host.

An operation is a function of the host, so what it does can be said in two ways.  One is an
equation for its run on a given host; the first part of this module has one for each way in which
operations are put together.  The other is a relation between two hosts that the operation respects:
started on related hosts it ends with the same result on related hosts.

Main definitions:

* `Edl.Host.after` — the host after a run of requests;
* `Edl.HostM.RespectsAt`, `Edl.HostM.Respects` — an operation that cannot tell two related hosts
  apart, and keeps them related;
* `Edl.Client.Respects` — the same of whatever the clients do;
* `Edl.Client.idle` — the client that does nothing.

Main results:

* `Edl.HostM.bind_of_ok`, `Edl.HostM.orUndo_of_error`, `Edl.HostM.drain_succ_of_release` — runs;
* `Edl.HostM.RespectsAt.bind`, `Edl.HostM.Respects.drain` and their kin — respect is composed.
-/

import Edl.Host.Request

set_option relaxedAutoImplicit false
set_option autoImplicit false

namespace Edl

namespace Registry

variable {α : Type}

@[simp] theorem next_add (r : Registry α) (a : α) : (r.add a).next = r.next + 1 := by
  simp [next, add]

@[simp] theorem next_modify (r : Registry α) (n : Nat) (f : α → α) :
    (r.modify n f).next = r.next := by
  simp [next, modify]

theorem get?_eq_none_iff {r : Registry α} {n : Nat} : r.get? n = none ↔ r.next ≤ n := by
  simp [get?, next]

theorem lt_next_of_get? {r : Registry α} {n : Nat} {a : α} (h : r.get? n = some a) :
    n < r.next := by
  rcases Nat.lt_or_ge n r.next with hlt | hge
  · exact hlt
  · rw [get?_eq_none_iff.2 hge] at h
    cases h

/-- A number leads to something after an addition if it did before or is the new one. -/
theorem get?_add_cases {r : Registry α} {a b : α} {n : Nat} (h : (r.add a).get? n = some b) :
    r.get? n = some b ∨ n = r.next ∧ b = a := by
  rcases Nat.lt_trichotomy n r.next with hlt | heq | hgt
  · exact .inl (get?_add_of_lt hlt ▸ h)
  · subst heq
    rw [get?_add_next] at h
    exact .inr ⟨rfl, (Option.some.inj h).symm⟩
  · have hnone : (r.add a).get? n = none := by
      rw [get?_eq_none_iff, next_add]
      omega
    rw [hnone] at h
    cases h

theorem get?_modify_cases {r : Registry α} {f : α → α} {n m : Nat} {b : α}
    (h : (r.modify n f).get? m = some b) :
    ∃ a, r.get? m = some a ∧ (b = a ∨ m = n ∧ b = f a) := by
  by_cases hne : n = m
  · subst hne
    rw [get?_modify_self, Option.map_eq_some_iff] at h
    obtain ⟨a, ha, rfl⟩ := h
    exact ⟨a, ha, .inr ⟨rfl, rfl⟩⟩
  · rw [get?_modify_of_ne hne] at h
    exact ⟨b, h, .inl rfl⟩

/-- A change depends only on what it does to the thing under the number. -/
theorem modify_congr {r : Registry α} {n : Nat} {a : α} {f g : α → α} (h : r.get? n = some a)
    (hfg : f a = g a) : r.modify n f = r.modify n g := by
  refine congrArg Registry.mk (List.ext_getElem? fun m => ?_)
  rw [List.getElem?_modify, List.getElem?_modify]
  split
  · next heq =>
      subst heq
      have hitem : r.items[n]? = some a := h
      simp [hitem, hfg]
  · rfl

/-- A change that leaves the thing under its number as it is changes nothing. -/
theorem modify_of_get? {r : Registry α} {n : Nat} {a : α} {f : α → α} (h : r.get? n = some a)
    (hf : f a = a) : r.modify n f = r := by
  cases r with
  | mk items =>
      refine congrArg Registry.mk (List.ext_getElem? fun m => ?_)
      rw [List.getElem?_modify]
      split
      · next heq =>
          subst heq
          have hitem : items[n]? = some a := h
          rw [hitem, Option.map_eq_map, Option.map_some, hf]
      · simp

/-- The last of two replacements counts. -/
theorem modify_modify (r : Registry α) (n : Nat) (f g : α → α) :
    (r.modify n f).modify n g = r.modify n (g ∘ f) := by
  refine congrArg Registry.mk (List.ext_getElem? fun m => ?_)
  simp only [modify, List.getElem?_modify]
  split <;> simp [Function.comp_def]

/-- Changing what was just added is adding the changed thing. -/
theorem modify_add_next (r : Registry α) (a : α) (f : α → α) :
    (r.add a).modify r.next f = r.add (f a) := by
  refine congrArg Registry.mk (List.ext_getElem? fun m => ?_)
  simp only [add, next, List.getElem?_modify]
  rcases Nat.lt_trichotomy m r.items.length with hlt | heq | hgt
  · have hne : r.items.length ≠ m := by omega
    rw [List.getElem?_append_left hlt, List.getElem?_append_left hlt]
    simp [hne]
  · subst heq
    simp
  · have hlength : r.items.length + 1 ≤ m := hgt
    rw [List.getElem?_eq_none (by simpa using hlength),
      List.getElem?_eq_none (by simpa using hlength)]
    rfl

end Registry

namespace HostM

variable {σ α β : Type}

/-! ### Runs -/

theorem bind_of_ok {act : HostM σ α} {next : α → HostM σ β} {h h' : Host σ} {a : α}
    (hact : act h = (.ok a, h')) : (act >>= next) h = next a h' := by
  rw [bind_apply, hact]

theorem bind_of_error {act : HostM σ α} {next : α → HostM σ β} {h h' : Host σ} {f : Fault}
    (hact : act h = (.error f, h')) : (act >>= next) h = (.error f, h') := by
  rw [bind_apply, hact]

@[simp] theorem get_bind (next : Host σ → HostM σ α) (h : Host σ) :
    (get >>= next) h = next h h := rfl

@[simp] theorem modify_bind (f : Host σ → Host σ) (next : Unit → HostM σ α) (h : Host σ) :
    (modify f >>= next) h = next () (f h) := rfl

@[simp] theorem write_apply (r : Log.Record) (h : Host σ) :
    (write r : HostM σ Unit) h = (.ok (), { h with log := h.log ++ [r] }) := rfl

theorem discard_apply (act : HostM σ α) (h : Host σ) :
    (discard act : HostM σ PUnit) h = ((act h).1.map fun _ => PUnit.unit, (act h).2) := by
  change (ExceptT.map _ act) h = _
  simp only [ExceptT.map, ExceptT.mk, bind, StateT.bind]
  rcases act h with ⟨_ | _, _⟩ <;> rfl

theorem orUndo_of_ok {act : HostM σ α} {undo : HostM σ Unit} {h h' : Host σ} {a : α}
    (hact : act h = (.ok a, h')) : orUndo act undo h = (.ok a, h') := by
  unfold orUndo
  rw [bind_of_ok (attempt_apply act h), hact]
  rfl

/-- What was undone without a fault of its own ends with the fault from before. -/
theorem orUndo_of_error {act : HostM σ α} {undo : HostM σ Unit} {h h' h'' : Host σ} {f : Fault}
    (hact : act h = (.error f, h')) (hundo : undo h' = (.ok (), h'')) :
    orUndo act undo h = (.error f, h'') := by
  unfold orUndo
  rw [bind_of_ok (attempt_apply act h), hact]
  exact bind_of_ok hundo

/-- Releasing goes on after each thing that was released without a fault. -/
theorem drain_succ_of_release {ρ : Type} {pop : HostM σ (Option ρ)} {release : ρ → HostM σ Unit}
    {bound : Nat} {last : Option Fault} {h h₁ h₂ : Host σ} {thing : ρ}
    (hpop : pop h = (.ok (some thing), h₁)) (hrelease : release thing h₁ = (.ok (), h₂)) :
    drain pop release (bound + 1) last h = drain pop release bound last h₂ := by
  rw [drain, bind_of_ok hpop]
  change (attempt (release thing) >>= _) h₁ = _
  rw [bind_of_ok (attempt_apply _ _), hrelease]

/-- Executing a command runs the handler under its name. -/
theorem execute_of_find? (client : Client σ) {h : Host σ} {name : String} {handler : Handler}
    (hfind : h.commands.find? name = some handler) :
    execute client name h = handler.run client h := by
  unfold execute
  rw [get_bind, hfind]

@[simp] theorem drain_zero {ρ : Type} (pop : HostM σ (Option ρ)) (release : ρ → HostM σ Unit)
    (last : Option Fault) (h : Host σ) : drain pop release 0 last h = (.ok last, h) := rfl

end HostM

/-- The host after requests, whether they are accepted or not. -/
def Host.after {σ : Type} (client : Client σ) (rs : List Request) (h : Host σ) : Host σ :=
  (HostM.performAll client rs h).2

namespace Host

variable {σ : Type}

theorem after_cons (client : Client σ) (r : Request) (rs : List Request) (h : Host σ) :
    h.after client (r :: rs) = (HostM.perform client r h).2.after client rs := by
  rw [after, HostM.performAll, HostM.bind_of_ok (HostM.attempt_apply _ _)]
  rfl

end Host

namespace HostM

variable {σ α β : Type}

/-! ### Respecting a relation -/

/-- Started on these two hosts the operation ends with the same result, on related hosts. -/
def RespectsAt (R : Host σ → Host σ → Prop) (act : HostM σ α) (h g : Host σ) : Prop :=
  (act h).1 = (act g).1 ∧ R (act h).2 (act g).2

/-- Started on related hosts the operation ends with the same result, on related hosts. -/
def Respects (R : Host σ → Host σ → Prop) (act : HostM σ α) : Prop :=
  ∀ h g, R h g → RespectsAt R act h g

variable {R : Host σ → Host σ → Prop} {h g : Host σ}

/-- What follows an operation is started where the operation ended. -/
theorem RespectsAt.bind {act : HostM σ α} {next : α → HostM σ β} (hact : RespectsAt R act h g)
    (hnext : ∀ a h' g', act h = (.ok a, h') → R h' g' → RespectsAt R (next a) h' g') :
    RespectsAt R (act >>= next) h g := by
  obtain ⟨hresult, hafter⟩ := hact
  unfold RespectsAt
  rw [bind_apply, bind_apply]
  rcases hh : act h with ⟨_ | a, h'⟩ <;> rcases hg : act g with ⟨_ | b, g'⟩ <;>
    rw [hh, hg] at hresult hafter
  · exact ⟨by rw [Except.error.inj hresult], hafter⟩
  · cases hresult
  · cases hresult
  · obtain rfl := Except.ok.inj hresult
    exact hnext a h' g' hh hafter

/-- An operation may look at the host as long as it sees the same on both. -/
theorem RespectsAt.get_bind {next : Host σ → HostM σ α} (hsame : next g = next h)
    (hnext : RespectsAt R (next h) h g) : RespectsAt R (get >>= next) h g := by
  unfold RespectsAt
  rw [HostM.get_bind, HostM.get_bind, hsame]
  exact hnext

theorem RespectsAt.modify {f : Host σ → Host σ} (hf : R (f h) (f g)) :
    RespectsAt R (modify f : HostM σ Unit) h g :=
  ⟨rfl, hf⟩

theorem RespectsAt.ofExcept (hR : R h g) (result : Except Fault α) :
    RespectsAt R (ofExcept result) h g := by
  unfold RespectsAt
  rw [ofExcept_apply, ofExcept_apply]
  exact ⟨rfl, hR⟩

theorem RespectsAt.attempt {act : HostM σ α} (hact : RespectsAt R act h g) :
    RespectsAt R (attempt act) h g :=
  ⟨congrArg Except.ok hact.1, hact.2⟩

theorem RespectsAt.orUndo {act : HostM σ α} {undo : HostM σ Unit} (hact : RespectsAt R act h g)
    (hundo : Respects R undo) : RespectsAt R (orUndo act undo) h g := by
  refine hact.attempt.bind fun result h' g' _ hR => ?_
  cases result with
  | error f => exact (hundo h' g' hR).bind fun _ h'' g'' _ hR' => ⟨rfl, hR'⟩
  | ok a => exact ⟨rfl, hR⟩

theorem Respects.pure (a : α) : Respects R (pure a) :=
  fun _ _ hR => ⟨rfl, hR⟩

theorem Respects.throw (f : Fault) : Respects R (throw f : HostM σ α) :=
  fun _ _ hR => ⟨rfl, hR⟩

theorem Respects.bind {act : HostM σ α} {next : α → HostM σ β} (hact : Respects R act)
    (hnext : ∀ a, Respects R (next a)) : Respects R (act >>= next) :=
  fun h g hR => (hact h g hR).bind fun a h' g' _ hR' => hnext a h' g' hR'

/-- A loop respects what each of its rounds respects. -/
theorem Respects.forM {xs : List α} {body : α → HostM σ PUnit}
    (hbody : ∀ x ∈ xs, Respects R (body x)) : Respects R (xs.forM body) := by
  induction xs with
  | nil => exact Respects.pure PUnit.unit
  | cons x xs ih =>
      exact Respects.bind (hbody x (List.mem_cons_self ..)) fun _ =>
        ih fun y hy => hbody y (List.mem_cons_of_mem _ hy)

/-- Releasing respects what each round of it respects, where a thing is taken away and given back.
-/
theorem Respects.drain {ρ : Type} {pop : HostM σ (Option ρ)} {release : ρ → HostM σ Unit}
    (hpop : Respects R pop)
    (hrelease : ∀ thing h g h' g', R h g → pop h = (.ok (some thing), h') → R h' g' →
      RespectsAt R (release thing) h' g')
    (bound : Nat) (last : Option Fault) : Respects R (drain pop release bound last) := by
  induction bound generalizing last with
  | zero => exact Respects.pure last
  | succ bound ih =>
      intro h g hR
      refine (hpop h g hR).bind fun thing h' g' hrun hR' => ?_
      cases thing with
      | none => exact ⟨rfl, hR'⟩
      | some thing =>
          have hround := hrelease thing h g h' g' hR hrun hR'
          refine hround.attempt.bind fun result h'' g'' _ hR'' => ?_
          cases result with
          | error f => exact ih (some f) h'' g'' hR''
          | ok _ => exact ih last h'' g'' hR''

theorem Respects.throwIfSome (fault : Option Fault) :
    Respects R (throwIfSome fault : HostM σ Unit) := by
  cases fault with
  | none => exact Respects.pure ()
  | some f => exact Respects.throw f

end HostM

/-- Nothing that the clients do tells related hosts apart. -/
structure Client.Respects {σ : Type} (client : Client σ) (R : Host σ → Host σ → Prop) : Prop where
  notify : ∀ name event, HostM.Respects R (client.notify name event)
  invoke : ∀ number, HostM.Respects R (client.invoke number)

namespace Client

variable {σ : Type}

/-- The client that does nothing. -/
def idle : Client σ :=
  ⟨fun _ _ => pure (), fun _ => pure .null⟩

theorem respects_idle (R : Host σ → Host σ → Prop) : (idle : Client σ).Respects R :=
  ⟨fun _ _ => HostM.Respects.pure (), fun _ => HostM.Respects.pure _⟩

end Client

end Edl
