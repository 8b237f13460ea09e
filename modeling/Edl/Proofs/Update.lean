/-
The elementary changes of a host.

Whatever happens to a host is made of a dozen kinds of changes: the workspace is replaced, a
listener comes or goes, a command is registered or taken away, a record is added to one of the
registries or changed.  `Edl.Update` lists them.  What is to be shown of every run is shown of each
of these changes once, under the condition `Edl.Update.Allowed` under which hosts make it.

Not everybody may change everything.  A *scope* is a choice of services, linters and collections,
and of observers for each collection; an update is allowed within the scope `hands` if it lays hands
on nothing else.  The entries of a collection may be written in a larger scope `ears`, since linters
write to their collections when they are told of a change, no matter who made it.

Main definitions:

* `Edl.Scope` — a choice of services, linters, collections and observers;
* `Edl.Update`, `Edl.Update.apply`, `Edl.Update.Allowed` — elementary changes;
* `Edl.Host.Agrees` — two hosts that differ only outside a scope.

Main results:

* `Edl.Host.Agrees.update` — hosts that agree go on agreeing.
-/

import Edl.Proofs.History
import Edl.Proofs.Release

set_option relaxedAutoImplicit false
set_option autoImplicit false

namespace Edl

/-! ### Scopes -/

theorem CollectionId.number_ne {c d : CollectionId} (h : c ≠ d) : c.number ≠ d.number :=
  fun heq => h (congrArg CollectionId.mk heq)

theorem LinterId.number_ne {l m : LinterId} (h : l ≠ m) : l.number ≠ m.number :=
  fun heq => h (congrArg LinterId.mk heq)

theorem ServiceId.number_ne {s t : ServiceId} (h : s ≠ t) : s.number ≠ t.number :=
  fun heq => h (congrArg ServiceId.mk heq)

/-- A choice of services, linters and collections, and of who may observe which collection. -/
structure Scope where
  service : ServiceId → Prop
  linter : LinterId → Prop
  collection : CollectionId → Prop
  observer : CollectionId → (name : String) → Prop

namespace Scope

/-- Everything. -/
def all : Scope :=
  ⟨fun _ => True, fun _ => True, fun _ => True, fun _ _ => True⟩

/-- Everything but a service, its linter and its collection, which only the quiet may observe. -/
def sparing (s : ServiceId) (l : LinterId) (c : CollectionId)
    (quiet : String → Prop := fun _ => False) : Scope :=
  ⟨(· ≠ s), (· ≠ l), (· ≠ c), fun id name => id ≠ c ∨ quiet name⟩

/-- Clients are in every scope, linters and services if they are chosen. -/
def listener (S : Scope) : Listener → Prop
  | .linter l => S.linter l
  | .service s => S.service s
  | .client _ => True

/-- A command of a service is in scope if the service is. -/
def handler (S : Scope) : Handler → Prop
  | .validateActive s => S.service s
  | .client _ => True

/-- One scope is part of another. -/
structure Le (S T : Scope) : Prop where
  service : ∀ s, S.service s → T.service s
  linter : ∀ l, S.linter l → T.linter l
  collection : ∀ c, S.collection c → T.collection c
  observer : ∀ c name, S.observer c name → T.observer c name

variable {S T : Scope}

theorem Le.refl (S : Scope) : S.Le S :=
  ⟨fun _ => id, fun _ => id, fun _ => id, fun _ _ => id⟩

theorem le_all (S : Scope) : S.Le all :=
  ⟨fun _ _ => trivial, fun _ _ => trivial, fun _ _ => trivial, fun _ _ _ => trivial⟩

theorem Le.listener (h : S.Le T) {x : Listener} (hx : S.listener x) : T.listener x := by
  cases x with
  | linter l => exact h.linter l hx
  | service s => exact h.service s hx
  | client name => trivial

theorem Le.handler (h : S.Le T) {y : Handler} (hy : S.handler y) : T.handler y := by
  cases y with
  | validateActive s => exact h.service s hy
  | client number => trivial

end Scope

/-! ### Updates -/

/-- The elementary changes of a host. -/
inductive Update (σ : Type) where
  | workspace (w : Workspace)
  | note (messages : List Message) (log : List Log.Record) (state : σ → σ)
  | subscribe (channel : Channel) (x : Listener)
  | unsubscribe (channel : Channel) (x : Listener)
  | register (name : String) (y : Handler)
  | unregister (name : String)
  | addCollection (c : Collection)
  | changeCollection (id : CollectionId) (f : Collection → Collection)
  | writeEntries (id : CollectionId) (entries : Table Entry)
  | observe (id : CollectionId) (name : String)
  | unobserve (id : CollectionId) (name : String)
  | addLinter (x : Linter)
  | setLinterHeld (id : LinterId) (held : List Linter.Holding)
  | addService (x : Service)
  | setServiceHeld (id : ServiceId) (held : List Service.Holding)

namespace Host

variable {σ : Type}

/-- A listener that is a linter or a service is one of the host. -/
def HasListener (h : Host σ) : Listener → Prop
  | .linter l => l.number < h.linters.next
  | .service s => s.number < h.services.next
  | .client _ => True

/-- A command of a service is one of a service of the host. -/
def HasHandler (h : Host σ) : Handler → Prop
  | .validateActive s => s.number < h.services.next
  | .client _ => True

end Host

namespace Update

variable {σ : Type}

/-- The host after a change. -/
def apply : Update σ → Host σ → Host σ
  | workspace w, h => { h with workspace := w }
  | note messages log state, h =>
      { h with
        messages := h.messages ++ messages, log := h.log ++ log, client := state h.client }
  | subscribe channel x, h => { h with channels := h.channels.modify channel (·.subscribe x) }
  | unsubscribe channel x, h => { h with channels := h.channels.modify channel (·.release x) }
  | register name y, h => { h with commands := h.commands.insert name y }
  | unregister name, h => { h with commands := h.commands.erase name }
  | addCollection c, h => { h with collections := h.collections.add c }
  | changeCollection id f, h => { h with collections := h.collections.modify id.number f }
  | writeEntries id entries, h =>
      { h with collections := h.collections.modify id.number fun c => { c with entries } }
  | observe id name, h =>
      { h with collections := h.collections.modify id.number fun c =>
          { c with emitter := c.emitter.subscribe name } }
  | unobserve id name, h =>
      { h with collections := h.collections.modify id.number fun c =>
          { c with emitter := c.emitter.release name } }
  | addLinter x, h => { h with linters := h.linters.add x }
  | setLinterHeld id held, h => h.setLinterHeld id held
  | addService x, h => { h with services := h.services.add x }
  | setServiceHeld id held, h => h.setServiceHeld id held

/-- When a host makes a change: within the scope `hands`, except that entries are written in the
scope `ears`.  Only a service whose command is registered holds it. -/
def Allowed (hands ears : Scope) (h : Host σ) : Update σ → Prop
  | workspace w => ∃ r, h.workspace.step r = .ok w
  | note _ _ _ => True
  | subscribe _ x => hands.listener x ∧ h.HasListener x
  | unsubscribe _ x => hands.listener x
  | register name y => hands.handler y ∧ h.HasHandler y ∧ name ∉ h.commands.keys
  | unregister name =>
      (∀ y, h.commands.find? name = some y → hands.handler y) ∧
        ∀ s x, ears.service s → h.services.get? s.number = some x → .command ∈ x.held →
          name ≠ validateCommand
  | addCollection _ => True
  | changeCollection id _ => hands.collection id
  | writeEntries id _ => ears.collection id
  | observe id name | unobserve id name => hands.observer id name
  | addLinter x => hands.collection x.collection ∧ x.collection.number < h.collections.next
  | setLinterHeld id _ => hands.linter id
  | addService x =>
      hands.linter x.linter ∧ x.linter.number < h.linters.next ∧ x.held = [.linter]
  | setServiceHeld id held =>
      hands.service id ∧ held.Nodup ∧
        (.command ∈ held → h.commands.find? validateCommand = some (.validateActive id))

end Update

/-! ### Agreement -/

/-- Two registries with the same numbers, and the same things under those that are chosen. -/
structure Registry.AgreesOn {α : Type} (p : Nat → Prop) (r r' : Registry α) : Prop where
  next : r.next = r'.next
  get? : ∀ n, p n → r.get? n = r'.get? n

namespace Registry.AgreesOn

variable {α : Type} {p : Nat → Prop} {r r' : Registry α}

theorem refl (p : Nat → Prop) (r : Registry α) : AgreesOn p r r :=
  ⟨rfl, fun _ _ => rfl⟩

theorem add (h : AgreesOn p r r') (a : α) : AgreesOn p (r.add a) (r'.add a) where
  next := by rw [next_add, next_add, h.next]
  get? := by
    intro n hn
    rcases Nat.lt_trichotomy n r.next with hlt | heq | hgt
    · rw [get?_add_of_lt hlt, get?_add_of_lt (h.next ▸ hlt), h.get? n hn]
    · subst heq
      rw [get?_add_next, h.next, get?_add_next]
    · have hnone : ∀ q : Registry α, q.next = r.next → (q.add a).get? n = none := by
        intro q hq
        rw [get?_eq_none_iff, next_add]
        omega
      rw [hnone r rfl, hnone r' h.next.symm]

theorem modify (h : AgreesOn p r r') (n : Nat) (f : α → α) :
    AgreesOn p (r.modify n f) (r'.modify n f) where
  next := by rw [next_modify, next_modify, h.next]
  get? := by
    intro m hm
    by_cases hne : n = m
    · subst hne
      rw [get?_modify_self, get?_modify_self, h.get? n hm]
    · rw [get?_modify_of_ne hne, get?_modify_of_ne hne, h.get? m hm]

end Registry.AgreesOn

/-- Two hosts that differ at most in the records outside a scope. -/
structure Host.Agrees {σ : Type} (S : Scope) (h g : Host σ) : Prop where
  workspace : h.workspace = g.workspace
  channels : h.channels = g.channels
  commands : h.commands = g.commands
  messages : h.messages = g.messages
  log : h.log = g.log
  client : h.client = g.client
  collections : h.collections.AgreesOn (fun n => S.collection ⟨n⟩) g.collections
  linters : h.linters.AgreesOn (fun n => S.linter ⟨n⟩) g.linters
  services : h.services.AgreesOn (fun n => S.service ⟨n⟩) g.services

namespace Host.Agrees

variable {σ : Type} {S T : Scope} {h g : Host σ}

theorem refl (S : Scope) (h : Host σ) : h.Agrees S h :=
  ⟨rfl, rfl, rfl, rfl, rfl, rfl, .refl _ _, .refl _ _, .refl _ _⟩

theorem collection?_eq (ha : h.Agrees S g) {id : CollectionId} (hid : S.collection id) :
    h.collection? id = g.collection? id :=
  ha.collections.get? id.number hid

theorem linter_eq (ha : h.Agrees S g) {id : LinterId} (hid : S.linter id) :
    h.linters.get? id.number = g.linters.get? id.number :=
  ha.linters.get? id.number hid

theorem service_eq (ha : h.Agrees S g) {id : ServiceId} (hid : S.service id) :
    h.services.get? id.number = g.services.get? id.number :=
  ha.services.get? id.number hid

/-- Hosts that agree go on agreeing when the same is done to both. -/
theorem update (ha : h.Agrees S g) (u : Update σ) : (u.apply h).Agrees S (u.apply g) := by
  obtain ⟨hworkspace, hchannels, hcommands, hmessages, hlog, hclient, hc, hl, hs⟩ := ha
  cases u with
  | workspace w => exact ⟨rfl, hchannels, hcommands, hmessages, hlog, hclient, hc, hl, hs⟩
  | note messages log state =>
      exact ⟨hworkspace, hchannels, hcommands, by simp only [Update.apply, hmessages],
        by simp only [Update.apply, hlog], by simp only [Update.apply, hclient], hc, hl, hs⟩
  | subscribe channel x =>
      exact ⟨hworkspace, by simp only [Update.apply, hchannels], hcommands, hmessages, hlog,
        hclient, hc, hl, hs⟩
  | unsubscribe channel x =>
      exact ⟨hworkspace, by simp only [Update.apply, hchannels], hcommands, hmessages, hlog,
        hclient, hc, hl, hs⟩
  | register name y =>
      exact ⟨hworkspace, hchannels, by simp only [Update.apply, hcommands], hmessages, hlog,
        hclient, hc, hl, hs⟩
  | unregister name =>
      exact ⟨hworkspace, hchannels, by simp only [Update.apply, hcommands], hmessages, hlog,
        hclient, hc, hl, hs⟩
  | addCollection c =>
      exact ⟨hworkspace, hchannels, hcommands, hmessages, hlog, hclient, hc.add c, hl, hs⟩
  | changeCollection id f =>
      exact ⟨hworkspace, hchannels, hcommands, hmessages, hlog, hclient, hc.modify _ _, hl, hs⟩
  | writeEntries id entries =>
      exact ⟨hworkspace, hchannels, hcommands, hmessages, hlog, hclient, hc.modify _ _, hl, hs⟩
  | observe id name =>
      exact ⟨hworkspace, hchannels, hcommands, hmessages, hlog, hclient, hc.modify _ _, hl, hs⟩
  | unobserve id name =>
      exact ⟨hworkspace, hchannels, hcommands, hmessages, hlog, hclient, hc.modify _ _, hl, hs⟩
  | addLinter x =>
      exact ⟨hworkspace, hchannels, hcommands, hmessages, hlog, hclient, hc, hl.add x, hs⟩
  | setLinterHeld id held =>
      exact ⟨hworkspace, hchannels, hcommands, hmessages, hlog, hclient, hc, hl.modify _ _, hs⟩
  | addService x =>
      exact ⟨hworkspace, hchannels, hcommands, hmessages, hlog, hclient, hc, hl, hs.add x⟩
  | setServiceHeld id held =>
      exact ⟨hworkspace, hchannels, hcommands, hmessages, hlog, hclient, hc, hl, hs.modify _ _⟩

end Host.Agrees

end Edl
