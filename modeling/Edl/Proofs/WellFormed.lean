/-
Well-formed hosts.

In a well-formed host nothing refers to what is not there: whoever listens or has a command is a
linter or a service of the host, linters write to collections of the host, services work with
linters of the host, and a service that holds the command is the one whose command is registered.
The workspace can be read.

The notion is relative to a scope: only records in the scope are looked at, and they refer only to
records in the scope.  So a host that is well-formed in a scope which leaves out one service has no
trace of that service outside its own records.

Main definitions:

* `Edl.Host.WellFormed` — well-formed hosts.

Main results:

* `Edl.Host.WellFormed.update` — **allowed updates keep a host well-formed**;
* `Edl.Host.wellFormed_start` — a host to which nothing is attached is well-formed.
-/

import Edl.Proofs.Update

set_option relaxedAutoImplicit false
set_option autoImplicit false

namespace Edl

/-! ### Listeners after a change -/

theorem Channels.mem_modify_subscribe {cs : Channels} {channel channel' : Channel}
    {x y : Listener}
    (h : x ∈ ((cs.modify channel (·.subscribe y)).get channel').listeners) :
    x ∈ (cs.get channel').listeners ∨ x = y := by
  by_cases hne : channel = channel'
  · subst hne
    rw [get_modify_self, Emitter.listeners_subscribe, List.mem_append, List.mem_singleton] at h
    exact h
  · rw [get_modify_of_ne hne] at h
    exact .inl h

theorem Channels.mem_of_mem_modify_release {cs : Channels} {channel channel' : Channel}
    {x y : Listener}
    (h : x ∈ ((cs.modify channel (·.release y)).get channel').listeners) :
    x ∈ (cs.get channel').listeners := by
  by_cases hne : channel = channel'
  · subst hne
    rw [get_modify_self, Emitter.listeners_release] at h
    exact List.mem_of_mem_erase h
  · rwa [get_modify_of_ne hne] at h

namespace Host

variable {σ : Type}

/-- Numbers that are not given yet are in the scope. -/
structure Fresh (S : Scope) (h : Host σ) : Prop where
  collections : ∀ n, h.collections.next ≤ n → S.collection ⟨n⟩
  linters : ∀ n, h.linters.next ≤ n → S.linter ⟨n⟩
  services : ∀ n, h.services.next ≤ n → S.service ⟨n⟩

/-- Nothing refers to what is not there, or not in the scope. -/
structure WellFormed (S : Scope) (h : Host σ) : Prop where
  sound : h.workspace.Sound
  fresh : h.Fresh S
  -- whoever is told something is there
  listening : ∀ channel x, x ∈ (h.channels.get channel).listeners → S.listener x ∧ h.HasListener x
  handling : ∀ name y, h.commands.find? name = some y → S.handler y ∧ h.HasHandler y
  -- linters write to collections, and services have linters, that are there
  feeding : ∀ l x, S.linter l → h.linters.get? l.number = some x →
    S.collection x.collection ∧ x.collection.number < h.collections.next
  employing : ∀ s x, S.service s → h.services.get? s.number = some x →
    S.linter x.linter ∧ x.linter.number < h.linters.next
  -- a service that holds the command has registered it
  holding : ∀ s x, S.service s → h.services.get? s.number = some x → .command ∈ x.held →
    h.commands.find? validateCommand = some (.validateActive s)
  once : ∀ s x, S.service s → h.services.get? s.number = some x → x.held.Nodup

variable {S hands : Scope} {h g : Host σ}

theorem HasListener.mono {x : Listener} (hx : h.HasListener x)
    (hlinters : h.linters.next ≤ g.linters.next) (hservices : h.services.next ≤ g.services.next) :
    g.HasListener x := by
  cases x with
  | linter l => exact Nat.lt_of_lt_of_le hx hlinters
  | service s => exact Nat.lt_of_lt_of_le hx hservices
  | client name => trivial

theorem HasHandler.mono {y : Handler} (hy : h.HasHandler y)
    (hservices : h.services.next ≤ g.services.next) : g.HasHandler y := by
  cases y with
  | validateActive s => exact Nat.lt_of_lt_of_le hy hservices
  | client number => trivial

/-- A host to which nothing is attached is well-formed. -/
theorem wellFormed_start {w : Workspace} (hw : w.Sound) (state : σ) :
    WellFormed .all { workspace := w, client := state } where
  sound := hw
  fresh := ⟨fun _ _ => trivial, fun _ _ => trivial, fun _ _ => trivial⟩
  listening := by
    intro channel x hx
    cases channel <;> cases hx
  handling := by
    intro name y hy
    cases hy
  feeding := by
    intro l x _ hx
    cases hx
  employing := by
    intro s x _ hx
    cases hx
  holding := by
    intro s x _ hx
    cases hx
  once := by
    intro s x _ hx
    cases hx

/-! ### One field changed -/

/-- Nothing but the registrations and the records matters, as long as the workspace is sound. -/
theorem WellFormed.frame (hwf : h.WellFormed S) {w : Workspace} (hw : w.Sound)
    (messages : List Message) (log : List Log.Record) (state : σ) :
    WellFormed S { h with workspace := w, messages, log, client := state } :=
  ⟨hw, ⟨hwf.fresh.collections, hwf.fresh.linters, hwf.fresh.services⟩, hwf.listening,
    hwf.handling, hwf.feeding, hwf.employing, hwf.holding, hwf.once⟩

theorem WellFormed.with_channels (hwf : h.WellFormed S) {cs : Channels}
    (hlistening : ∀ channel x, x ∈ (cs.get channel).listeners → S.listener x ∧ h.HasListener x) :
    WellFormed S { h with channels := cs } :=
  ⟨hwf.sound, ⟨hwf.fresh.collections, hwf.fresh.linters, hwf.fresh.services⟩, hlistening,
    hwf.handling, hwf.feeding, hwf.employing, hwf.holding, hwf.once⟩

theorem WellFormed.with_commands (hwf : h.WellFormed S) {t : Table Handler}
    (hhandling : ∀ name y, t.find? name = some y → S.handler y ∧ h.HasHandler y)
    (hholding : ∀ s x, S.service s → h.services.get? s.number = some x → .command ∈ x.held →
      t.find? validateCommand = some (.validateActive s)) :
    WellFormed S { h with commands := t } :=
  ⟨hwf.sound, ⟨hwf.fresh.collections, hwf.fresh.linters, hwf.fresh.services⟩, hwf.listening,
    hhandling, hwf.feeding, hwf.employing, hholding, hwf.once⟩

theorem WellFormed.with_collections (hwf : h.WellFormed S) {r : Registry Collection}
    (hnext : h.collections.next ≤ r.next) : WellFormed S { h with collections := r } where
  sound := hwf.sound
  fresh := ⟨fun n hn => hwf.fresh.collections n (Nat.le_trans hnext hn), hwf.fresh.linters,
    hwf.fresh.services⟩
  listening := hwf.listening
  handling := hwf.handling
  feeding := by
    intro l x hl hx
    obtain ⟨hscope, hlt⟩ := hwf.feeding l x hl hx
    exact ⟨hscope, Nat.lt_of_lt_of_le hlt hnext⟩
  employing := hwf.employing
  holding := hwf.holding
  once := hwf.once

theorem WellFormed.with_linters (hwf : h.WellFormed S) {r : Registry Linter}
    (hnext : h.linters.next ≤ r.next)
    (hfeeding : ∀ l x, S.linter l → r.get? l.number = some x →
      S.collection x.collection ∧ x.collection.number < h.collections.next) :
    WellFormed S { h with linters := r } where
  sound := hwf.sound
  fresh := ⟨hwf.fresh.collections, fun n hn => hwf.fresh.linters n (Nat.le_trans hnext hn),
    hwf.fresh.services⟩
  listening := by
    intro channel x hx
    obtain ⟨hscope, hthere⟩ := hwf.listening channel x hx
    exact ⟨hscope, hthere.mono hnext (Nat.le_refl _)⟩
  handling := hwf.handling
  feeding := hfeeding
  employing := by
    intro s x hs hx
    obtain ⟨hscope, hlt⟩ := hwf.employing s x hs hx
    exact ⟨hscope, Nat.lt_of_lt_of_le hlt hnext⟩
  holding := hwf.holding
  once := hwf.once

theorem WellFormed.with_services (hwf : h.WellFormed S) {r : Registry Service}
    (hnext : h.services.next ≤ r.next)
    (hrecords : ∀ s x, S.service s → r.get? s.number = some x →
      (S.linter x.linter ∧ x.linter.number < h.linters.next) ∧
        (.command ∈ x.held → h.commands.find? validateCommand = some (.validateActive s)) ∧
        x.held.Nodup) :
    WellFormed S { h with services := r } where
  sound := hwf.sound
  fresh := ⟨hwf.fresh.collections, hwf.fresh.linters,
    fun n hn => hwf.fresh.services n (Nat.le_trans hnext hn)⟩
  listening := by
    intro channel x hx
    obtain ⟨hscope, hthere⟩ := hwf.listening channel x hx
    exact ⟨hscope, hthere.mono (Nat.le_refl _) hnext⟩
  handling := by
    intro name y hy
    obtain ⟨hscope, hthere⟩ := hwf.handling name y hy
    exact ⟨hscope, hthere.mono hnext⟩
  feeding := hwf.feeding
  employing := fun s x hs hx => (hrecords s x hs hx).1
  holding := fun s x hs hx => (hrecords s x hs hx).2.1
  once := fun s x hs hx => (hrecords s x hs hx).2.2

/-! ### Updates -/

theorem WellFormed.subscribe (hwf : h.WellFormed S) (channel : Channel) {x : Listener}
    (hscope : S.listener x) (hthere : h.HasListener x) :
    WellFormed S { h with channels := h.channels.modify channel (·.subscribe x) } := by
  refine hwf.with_channels fun channel' x' hx' => ?_
  rcases Channels.mem_modify_subscribe hx' with hold | rfl
  · exact hwf.listening channel' x' hold
  · exact ⟨hscope, hthere⟩

theorem WellFormed.unsubscribe (hwf : h.WellFormed S) (channel : Channel) (x : Listener) :
    WellFormed S { h with channels := h.channels.modify channel (·.release x) } :=
  hwf.with_channels fun channel' x' hx' =>
    hwf.listening channel' x' (Channels.mem_of_mem_modify_release hx')

theorem WellFormed.register (hwf : h.WellFormed S) {name : String} {y : Handler}
    (hscope : S.handler y) (hthere : h.HasHandler y) (hfree : name ∉ h.commands.keys) :
    WellFormed S { h with commands := h.commands.insert name y } := by
  refine hwf.with_commands (fun name' y' hy' => ?_) fun s x hs hx hheld => ?_
  · rw [Table.find?_insert] at hy'
    split at hy'
    · obtain rfl := Option.some.inj hy'
      exact ⟨hscope, hthere⟩
    · exact hwf.handling name' y' hy'
  · -- the name of the command is taken if somebody holds it
    have hfind := hwf.holding s x hs hx hheld
    have hne : validateCommand ≠ name := by
      rintro rfl
      exact hfree (Table.mem_keys_iff.2 ⟨_, hfind⟩)
    rw [Table.find?_insert_of_ne hne, hfind]

theorem WellFormed.unregister (hwf : h.WellFormed S) {name : String}
    (hfree : ∀ s x, S.service s → h.services.get? s.number = some x → .command ∈ x.held →
      name ≠ validateCommand) :
    WellFormed S { h with commands := h.commands.erase name } := by
  refine hwf.with_commands (fun name' y' hy' => ?_) fun s x hs hx hheld => ?_
  · rw [Table.find?_erase] at hy'
    split at hy'
    · cases hy'
    · exact hwf.handling name' y' hy'
  · rw [Table.find?_erase_of_ne (hfree s x hs hx hheld).symm]
    exact hwf.holding s x hs hx hheld

theorem WellFormed.modify_collections (hwf : h.WellFormed S) (n : Nat)
    (f : Collection → Collection) :
    WellFormed S { h with collections := h.collections.modify n f } :=
  hwf.with_collections (by simp)

theorem WellFormed.add_linter (hwf : h.WellFormed S) {x : Linter}
    (hscope : S.collection x.collection) (hlt : x.collection.number < h.collections.next) :
    WellFormed S { h with linters := h.linters.add x } := by
  refine hwf.with_linters (by simp) fun l x' hl hx' => ?_
  rcases Registry.get?_add_cases hx' with hold | ⟨-, rfl⟩
  · exact hwf.feeding l x' hl hold
  · exact ⟨hscope, hlt⟩

theorem WellFormed.setLinterHeld (hwf : h.WellFormed S) (id : LinterId)
    (held : List Linter.Holding) : (h.setLinterHeld id held).WellFormed S := by
  refine hwf.with_linters (by simp) fun l x' hl hx' => ?_
  obtain ⟨x, hx, rfl | ⟨-, rfl⟩⟩ := Registry.get?_modify_cases hx'
  · exact hwf.feeding l _ hl hx
  · exact hwf.feeding l x hl hx

theorem WellFormed.add_service (hwf : h.WellFormed S) {x : Service} (hscope : S.linter x.linter)
    (hlt : x.linter.number < h.linters.next) (hheld : x.held = [.linter]) :
    WellFormed S { h with services := h.services.add x } := by
  refine hwf.with_services (by simp) fun s x' hs hx' => ?_
  rcases Registry.get?_add_cases hx' with hold | ⟨-, rfl⟩
  · exact ⟨hwf.employing s x' hs hold, hwf.holding s x' hs hold, hwf.once s x' hs hold⟩
  · rw [hheld]
    exact ⟨⟨hscope, hlt⟩, by simp, by simp⟩

theorem WellFormed.setServiceHeld (hwf : h.WellFormed S) {id : ServiceId}
    {held : List Service.Holding} (hnodup : held.Nodup)
    (hcommand : .command ∈ held → h.commands.find? validateCommand = some (.validateActive id)) :
    (h.setServiceHeld id held).WellFormed S := by
  refine hwf.with_services (by simp) fun s x' hs hx' => ?_
  obtain ⟨x, hx, rfl | ⟨hid, rfl⟩⟩ := Registry.get?_modify_cases hx'
  · exact ⟨hwf.employing s _ hs hx, hwf.holding s _ hs hx, hwf.once s _ hs hx⟩
  · refine ⟨hwf.employing s x hs hx, fun hmem => ?_, hnodup⟩
    have heq : s = id := congrArg ServiceId.mk hid
    rw [heq]
    exact hcommand hmem

/-- **Allowed updates keep a host well-formed.** -/
theorem WellFormed.update (hwf : h.WellFormed S) (hle : hands.Le S) {u : Update σ}
    (hu : u.Allowed hands S h) : (u.apply h).WellFormed S := by
  cases u with
  | workspace w =>
      obtain ⟨r, hr⟩ := hu
      exact hwf.frame (hwf.sound.step hr) _ _ _
  | note messages log state => exact hwf.frame hwf.sound _ _ _
  | subscribe channel x => exact hwf.subscribe channel (hle.listener hu.1) hu.2
  | unsubscribe channel x => exact hwf.unsubscribe channel x
  | register name y => exact hwf.register (hle.handler hu.1) hu.2.1 hu.2.2
  | unregister name => exact hwf.unregister hu.2
  | addCollection c => exact hwf.with_collections (by simp)
  | changeCollection id f => exact hwf.modify_collections _ _
  | writeEntries id entries => exact hwf.modify_collections _ _
  | observe id name => exact hwf.modify_collections _ _
  | unobserve id name => exact hwf.modify_collections _ _
  | addLinter x => exact hwf.add_linter (hle.collection _ hu.1) hu.2
  | setLinterHeld id held => exact hwf.setLinterHeld id held
  | addService x => exact hwf.add_service (hle.linter _ hu.1) hu.2.1 hu.2.2
  | setServiceHeld id held => exact hwf.setServiceHeld hu.2.1 hu.2.2

end Host

end Edl
