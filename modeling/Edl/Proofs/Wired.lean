/-
A service among others.

Between its activation and its disposal a service is wired up: it has the command, one listener of
its own on each channel, and a linter and a collection that nobody else uses.  Others come and go
around it, and may do what they like as long as they keep their hands off these three records.  Some
of them, the *quiet* ones, may observe the collection.

Main definitions:

* `Edl.Host.others` — everything but the service that is activated next, its linter and its
  collection;
* `Edl.Scope.Amid` — one listener amid those of a scope;
* `Edl.Host.Wired` — a service that is wired up.

Main results:

* `Edl.HostM.wired_of_activate` — a service is wired up when it is activated;
* `Edl.guarded_wired` — **it stays wired up, whatever others do**.
-/

import Edl.Proofs.Reachable

set_option relaxedAutoImplicit false
set_option autoImplicit false

namespace Edl

/-! ### One listener amid others -/

/-- One listener amid those of a scope. -/
def Scope.Amid (S : Scope) (own : Listener) (xs : List Listener) : Prop :=
  ∃ front back, xs = front ++ own :: back ∧ ∀ x ∈ front ++ back, S.listener x

namespace Scope.Amid

variable {S : Scope} {own x : Listener} {xs : List Listener}

/-- Others may come. -/
theorem append (h : S.Amid own xs) (hx : S.listener x) : S.Amid own (xs ++ [x]) := by
  obtain ⟨front, back, rfl, hothers⟩ := h
  refine ⟨front, back ++ [x], by simp, fun y hy => ?_⟩
  rw [← List.append_assoc, List.mem_append, List.mem_singleton] at hy
  rcases hy with hy | rfl
  · exact hothers y hy
  · exact hx

/-- Others may go. -/
theorem erase (h : S.Amid own xs) (hx : x ≠ own) : S.Amid own (xs.erase x) := by
  obtain ⟨front, back, rfl, hothers⟩ := h
  by_cases hfront : x ∈ front
  · refine ⟨front.erase x, back, List.erase_append_left _ hfront, fun y hy => hothers y ?_⟩
    rw [List.mem_append] at hy ⊢
    exact hy.imp_left List.mem_of_mem_erase
  · have hback : (own :: back).erase x = own :: back.erase x := by
      rw [List.erase_cons, if_neg (by simpa using hx.symm)]
    refine ⟨front, back.erase x, by rw [List.erase_append_right _ hfront, hback], fun y hy =>
      hothers y ?_⟩
    rw [List.mem_append] at hy ⊢
    exact hy.imp_right List.mem_of_mem_erase

/-- Taking the listener itself away leaves the others as they are. -/
theorem erase_own (h : S.Amid own xs) (hown : ¬S.listener own) :
    ∃ front back, xs = front ++ own :: back ∧ xs.erase own = front ++ back ∧
      ∀ x ∈ front ++ back, S.listener x := by
  obtain ⟨front, back, rfl, hothers⟩ := h
  have hfront : own ∉ front := fun hmem => hown (hothers own (List.mem_append_left _ hmem))
  refine ⟨front, back, rfl, ?_, hothers⟩
  rw [List.erase_append_right _ hfront, List.erase_cons_head]

end Scope.Amid

/-- What is there stays there when something is added. -/
theorem Registry.get?_add_of_get? {α : Type} {r : Registry α} {n : Nat} {a : α}
    (h : r.get? n = some a) (b : α) : (r.add b).get? n = some a := by
  rw [get?_add_of_lt (lt_next_of_get? h), h]

namespace Host

variable {σ : Type}

/-- Everything but the service that is activated next, its linter and its collection, which only
the quiet may observe. -/
def others (h : Host σ) (quiet : String → Prop := fun _ => False) : Scope :=
  .sparing ⟨h.services.next⟩ ⟨h.linters.next⟩ ⟨h.collections.next⟩ quiet

/-- The service is wired up, with a linter and a collection of its own. -/
structure Wired (quiet : String → Prop) (s : ServiceId) (l : LinterId) (c : CollectionId)
    (h : Host σ) : Prop where
  service : h.services.get? s.number = some ⟨l, Service.acquired⟩
  linter : ∃ rules, h.linters.get? l.number = some ⟨rules, c, Linter.acquired⟩
  collection : ∃ x, h.collections.get? c.number = some x ∧ x.disposed = false ∧
    ∀ name ∈ x.emitter.listeners, quiet name
  command : ∀ name, h.commands.find? name = some (.validateActive s) ↔ name = validateCommand
  listeners : ∀ channel,
    (Scope.sparing s l c).Amid (s.listener l channel) (h.channels.get channel).listeners
  -- nobody else uses its linter and its collection
  linters : ∀ l' x, l' ≠ l → h.linters.get? l'.number = some x → x.collection ≠ c
  services : ∀ s' x, s' ≠ s → h.services.get? s'.number = some x → x.linter ≠ l

variable {quiet : String → Prop} {s : ServiceId} {l : LinterId} {c : CollectionId} {h : Host σ}

/-- The listeners of a service are not among the others. -/
theorem not_listener_sparing (s : ServiceId) (l : LinterId) (c : CollectionId)
    (channel : Channel) : ¬(Scope.sparing s l c).listener (s.listener l channel) := by
  cases channel <;> exact fun hne => hne rfl

/-! ### Activation -/

/-- The service that was activated is wired up. -/
theorem wired_activated (quiet : String → Prop) (hwf : h.WellFormed .all) (rules : List Lint.Rule)
    {store : Collection} (records : List Log.Record) (halive : store.disposed = false)
    (hunobserved : store.emitter.listeners = []) :
    (h.activated rules store records).Wired quiet ⟨h.services.next⟩ ⟨h.linters.next⟩
      ⟨h.collections.next⟩ where
  service := Registry.get?_add_next ..
  linter := ⟨rules, Registry.get?_add_next ..⟩
  collection := ⟨store, Registry.get?_add_next .., halive, by simp [hunobserved]⟩
  command := by
    intro name
    change (h.commands.insert validateCommand _).find? name = _ ↔ _
    rw [Table.find?_insert]
    split
    · next heq => simp [heq]
    · next hne =>
        refine ⟨fun hfind => ?_, fun heq => absurd heq hne⟩
        have hlt : h.services.next < h.services.next := (hwf.handling name _ hfind).2
        omega
  listeners := by
    intro channel
    -- whoever listened before is not the new service or its linter
    have hothers : ∀ x ∈ (h.channels.get channel).listeners, h.others.listener x := by
      intro x hx
      have hthere := (hwf.listening channel x hx).2
      cases x with
      | linter l' =>
          rintro rfl
          exact Nat.lt_irrefl _ hthere
      | service s' =>
          rintro rfl
          exact Nat.lt_irrefl _ hthere
      | client name => trivial
    refine ⟨(h.channels.get channel).listeners, [], ?_, ?_⟩
    · cases channel <;> rfl
    · rwa [List.append_nil]
  linters := by
    intro l' x hne hx
    rcases Registry.get?_add_cases hx with hold | ⟨hnew, -⟩
    · intro hsame
      have hlt := (hwf.feeding l' x trivial hold).2
      rw [hsame] at hlt
      exact Nat.lt_irrefl _ hlt
    · exact absurd (congrArg LinterId.mk hnew) hne
  services := by
    intro s' x hne hx
    rcases Registry.get?_add_cases hx with hold | ⟨hnew, -⟩
    · intro hsame
      have hlt := (hwf.employing s' x trivial hold).2
      rw [hsame] at hlt
      exact Nat.lt_irrefl _ hlt
    · exact absurd (congrArg ServiceId.mk hnew) hne

/-- The scope of the others is closed as long as the service is wired up. -/
theorem Wired.fresh (hw : h.Wired quiet s l c) : h.Fresh (.sparing s l c quiet) where
  collections := by
    rintro n hn rfl
    obtain ⟨x, hx, -⟩ := hw.collection
    have hlt : n < h.collections.next := Registry.lt_next_of_get? hx
    omega
  linters := by
    rintro n hn rfl
    obtain ⟨rules, hx⟩ := hw.linter
    have hlt : n < h.linters.next := Registry.lt_next_of_get? hx
    omega
  services := by
    rintro n hn rfl
    have hlt : n < h.services.next := Registry.lt_next_of_get? hw.service
    omega

/-! ### One field changed -/

section

variable (hw : h.Wired quiet s l c)

include hw

/-- The wiring does not depend on the workspace, the messages, the log and the clients. -/
theorem Wired.frame (workspace : Workspace) (messages : List Message) (log : List Log.Record)
    (state : σ) : Wired quiet s l c { h with workspace, messages, log, client := state } :=
  ⟨hw.service, hw.linter, hw.collection, hw.command, hw.listeners, hw.linters, hw.services⟩

theorem Wired.with_channels {cs : Channels}
    (hlisteners : ∀ channel,
      (Scope.sparing s l c).Amid (s.listener l channel) (cs.get channel).listeners) :
    Wired quiet s l c { h with channels := cs } :=
  ⟨hw.service, hw.linter, hw.collection, hw.command, hlisteners, hw.linters, hw.services⟩

theorem Wired.with_commands {t : Table Handler}
    (hcommand : ∀ name, t.find? name = some (.validateActive s) ↔ name = validateCommand) :
    Wired quiet s l c { h with commands := t } :=
  ⟨hw.service, hw.linter, hw.collection, hcommand, hw.listeners, hw.linters, hw.services⟩

theorem Wired.with_collections {r : Registry Collection}
    (hcollection : ∃ x, r.get? c.number = some x ∧ x.disposed = false ∧
      ∀ name ∈ x.emitter.listeners, quiet name) : Wired quiet s l c { h with collections := r } :=
  ⟨hw.service, hw.linter, hcollection, hw.command, hw.listeners, hw.linters, hw.services⟩

theorem Wired.with_linters {r : Registry Linter}
    (hlinter : ∃ rules, r.get? l.number = some ⟨rules, c, Linter.acquired⟩)
    (hlinters : ∀ l' x, l' ≠ l → r.get? l'.number = some x → x.collection ≠ c) :
    Wired quiet s l c { h with linters := r } :=
  ⟨hw.service, hlinter, hw.collection, hw.command, hw.listeners, hlinters, hw.services⟩

theorem Wired.with_services {r : Registry Service}
    (hservice : r.get? s.number = some ⟨l, Service.acquired⟩)
    (hservices : ∀ s' x, s' ≠ s → r.get? s'.number = some x → x.linter ≠ l) :
    Wired quiet s l c { h with services := r } :=
  ⟨hservice, hw.linter, hw.collection, hw.command, hw.listeners, hw.linters, hservices⟩

/-! ### While others come and go -/

/-- Others may start and stop listening. -/
theorem Wired.modify_channel (channel : Channel) {f : Emitter Listener → Emitter Listener}
    (hothers : ∀ e : Emitter Listener,
      (Scope.sparing s l c).Amid (s.listener l channel) e.listeners →
        (Scope.sparing s l c).Amid (s.listener l channel) (f e).listeners) :
    Wired quiet s l c { h with channels := h.channels.modify channel f } := by
  refine hw.with_channels fun channel' => ?_
  by_cases hsame : channel = channel'
  · subst hsame
    rw [Channels.get_modify_self]
    exact hothers _ (hw.listeners channel)
  · rw [Channels.get_modify_of_ne hsame]
    exact hw.listeners channel'

theorem Wired.subscribe (channel : Channel) {x : Listener} (hx : (Scope.sparing s l c).listener x) :
    Wired quiet s l c { h with channels := h.channels.modify channel (·.subscribe x) } := by
  refine hw.modify_channel channel fun e he => ?_
  rw [Emitter.listeners_subscribe]
  exact he.append hx

theorem Wired.unsubscribe (channel : Channel) {x : Listener}
    (hx : (Scope.sparing s l c).listener x) :
    Wired quiet s l c { h with channels := h.channels.modify channel (·.release x) } := by
  refine hw.modify_channel channel fun e he => ?_
  rw [Emitter.listeners_release]
  refine he.erase ?_
  rintro rfl
  exact not_listener_sparing s l c channel hx

/-- A command of others has another name, for the service's is taken. -/
theorem Wired.register {name : String} {y : Handler} (hy : (Scope.sparing s l c).handler y)
    (hfree : name ∉ h.commands.keys) :
    Wired quiet s l c { h with commands := h.commands.insert name y } := by
  refine hw.with_commands fun name' => ?_
  rw [Table.find?_insert]
  split
  · next heq =>
      subst heq
      refine ⟨fun hsome => ?_, fun hname => ?_⟩
      · obtain rfl := Option.some.inj hsome
        exact absurd rfl hy
      · exact absurd (Table.mem_keys_iff.2 ⟨_, (hw.command name').2 hname⟩) hfree
  · exact hw.command name'

theorem Wired.unregister {name : String}
    (hothers : ∀ y, h.commands.find? name = some y → (Scope.sparing s l c).handler y) :
    Wired quiet s l c { h with commands := h.commands.erase name } := by
  -- the name is not that of the command, which is the service's
  have hname : name ≠ validateCommand := fun heq => hothers _ ((hw.command name).2 heq) rfl
  refine hw.with_commands fun name' => ?_
  rw [Table.find?_erase]
  split
  · next heq =>
      subst heq
      simp [hname]
  · exact hw.command name'

theorem Wired.add_collection (x : Collection) :
    Wired quiet s l c { h with collections := h.collections.add x } := by
  obtain ⟨store, hstore, hrest⟩ := hw.collection
  exact hw.with_collections ⟨store, Registry.get?_add_of_get? hstore x, hrest⟩

/-- A change of a collection that, if it is the service's own, keeps it alive and its observers
quiet. -/
theorem Wired.modify_collection (n : Nat) {f : Collection → Collection}
    (hown : n = c.number → ∀ x : Collection, x.disposed = false →
      (∀ name ∈ x.emitter.listeners, quiet name) →
        (f x).disposed = false ∧ ∀ name ∈ (f x).emitter.listeners, quiet name) :
    Wired quiet s l c { h with collections := h.collections.modify n f } := by
  obtain ⟨store, hstore, halive, hquiet⟩ := hw.collection
  refine hw.with_collections ?_
  by_cases hsame : n = c.number
  · refine ⟨f store, ?_, hown hsame store halive hquiet⟩
    rw [hsame, Registry.get?_modify_self, hstore, Option.map_some]
  · exact ⟨store, (Registry.get?_modify_of_ne hsame).trans hstore, halive, hquiet⟩

theorem Wired.change_collection {id : CollectionId} (hid : id ≠ c) (f : Collection → Collection) :
    Wired quiet s l c { h with collections := h.collections.modify id.number f } :=
  hw.modify_collection id.number fun hsame => absurd hsame (CollectionId.number_ne hid)

theorem Wired.writeEntries (id : CollectionId) (entries : Table Entry) :
    Wired quiet s l c
      { h with collections := h.collections.modify id.number fun x => { x with entries } } :=
  hw.modify_collection id.number fun _ _ halive hquiet => ⟨halive, hquiet⟩

/-- Of the collection of the service only the quiet become observers. -/
theorem Wired.observe {id : CollectionId} {name : String} (hname : id ≠ c ∨ quiet name) :
    Wired quiet s l c
      { h with collections := h.collections.modify id.number fun x =>
          { x with emitter := x.emitter.subscribe name } } := by
  refine hw.modify_collection id.number fun hsame x halive hquiet =>
    ⟨halive, fun name' hname' => ?_⟩
  rw [Emitter.listeners_subscribe, List.mem_append, List.mem_singleton] at hname'
  rcases hname' with hold | rfl
  · exact hquiet name' hold
  · exact hname.resolve_left fun hne => CollectionId.number_ne hne hsame

theorem Wired.unobserve (id : CollectionId) (name : String) :
    Wired quiet s l c
      { h with collections := h.collections.modify id.number fun x =>
          { x with emitter := x.emitter.release name } } := by
  refine hw.modify_collection id.number fun _ x halive hquiet => ⟨halive, fun name' hname' => ?_⟩
  rw [Emitter.listeners_release] at hname'
  exact hquiet name' (List.mem_of_mem_erase hname')

theorem Wired.add_linter {x : Linter} (hx : x.collection ≠ c) :
    Wired quiet s l c { h with linters := h.linters.add x } := by
  obtain ⟨rules, hlinter⟩ := hw.linter
  refine hw.with_linters ⟨rules, Registry.get?_add_of_get? hlinter x⟩ fun l' x' hne hx' => ?_
  rcases Registry.get?_add_cases hx' with hold | ⟨-, rfl⟩
  · exact hw.linters l' x' hne hold
  · exact hx

theorem Wired.setLinterHeld {id : LinterId} (hid : id ≠ l) (held : List Linter.Holding) :
    (h.setLinterHeld id held).Wired quiet s l c := by
  obtain ⟨rules, hlinter⟩ := hw.linter
  refine hw.with_linters
    ⟨rules, (Registry.get?_modify_of_ne (LinterId.number_ne hid)).trans hlinter⟩
    fun l' x' hl' hx' => ?_
  obtain ⟨x, hx, rfl | ⟨-, rfl⟩⟩ := Registry.get?_modify_cases hx'
  · exact hw.linters l' _ hl' hx
  · exact hw.linters l' x hl' hx

theorem Wired.add_service {x : Service} (hx : x.linter ≠ l) :
    Wired quiet s l c { h with services := h.services.add x } := by
  refine hw.with_services (Registry.get?_add_of_get? hw.service x) fun s' x' hne hx' => ?_
  rcases Registry.get?_add_cases hx' with hold | ⟨-, rfl⟩
  · exact hw.services s' x' hne hold
  · exact hx

theorem Wired.setServiceHeld {id : ServiceId} (hid : id ≠ s) (held : List Service.Holding) :
    (h.setServiceHeld id held).Wired quiet s l c := by
  refine hw.with_services ((Registry.get?_modify_of_ne (ServiceId.number_ne hid)).trans hw.service)
    fun s' x' hs' hx' => ?_
  obtain ⟨x, hx, rfl | ⟨-, rfl⟩⟩ := Registry.get?_modify_cases hx'
  · exact hw.services s' _ hs' hx
  · exact hw.services s' x hs' hx

/-- The service stays wired up when others change something. -/
theorem Wired.update {u : Update σ} (hu : u.Allowed (.sparing s l c quiet) .all h) :
    (u.apply h).Wired quiet s l c := by
  cases u with
  | workspace w => exact hw.frame w _ _ _
  | note messages log state => exact hw.frame _ _ _ _
  | subscribe channel x => exact hw.subscribe channel hu.1
  | unsubscribe channel x => exact hw.unsubscribe channel hu
  | register name y => exact hw.register hu.1 hu.2.2
  | unregister name => exact hw.unregister hu.1
  | addCollection x => exact hw.add_collection x
  | changeCollection id f => exact hw.change_collection hu f
  | writeEntries id entries => exact hw.writeEntries id entries
  | observe id name => exact hw.observe hu
  | unobserve id name => exact hw.unobserve id name
  | addLinter x => exact hw.add_linter hu.1
  | setLinterHeld id held => exact hw.setLinterHeld hu held
  | addService x => exact hw.add_service hu.1
  | setServiceHeld id held => exact hw.setServiceHeld hu.1 held

end

end Host

/-- **A service stays wired up**, whatever others do that keep their hands off it. -/
theorem guarded_wired {σ : Type} (quiet : String → Prop) (s : ServiceId) (l : LinterId)
    (c : CollectionId) :
    Guarded (.sparing s l c quiet) .all fun h _ : Host σ => h.Wired quiet s l c where
  le := Scope.le_all _
  fresh := fun _ _ _ hw => hw.fresh
  feeding := fun _ _ _ hw l' x hl hx => hw.linters l' x hl hx
  employing := fun _ _ _ hw s' x hs hx => hw.services s' x hs hx
  update := fun _ _ _ _ _ hw hu => hw.update hu

namespace HostM

/-- A service that was activated is wired up, on a host that is well-formed as before. -/
theorem wired_of_activate {σ : Type} (quiet : String → Prop) {h h₁ : Host σ}
    (hwf : h.WellFormed .all) {client : Client σ} {rules : List Lint.Rule} {s : ServiceId}
    (hactivate : activate client rules h = (.ok s, h₁)) :
    h₁.Wired quiet s ⟨h.linters.next⟩ ⟨h.collections.next⟩ ∧ h₁.WellFormed .all := by
  obtain ⟨hadmitted, rfl, records, rfl⟩ := activated_of_activate hactivate
  obtain ⟨halive, hunobserved⟩ := h.firstScan_frame rules
  refine ⟨Host.wired_activated quiet hwf rules records halive hunobserved, ?_⟩
  -- no client is reached, so it can be taken to be one that does nothing
  have hG := @Guarded.unconstrained σ .all
  have hidle := Client.respects_idle (Alike (σ := σ) .all fun _ _ => True)
  have hwf₁ := (hG.respects_activate hidle rules h h ⟨.refl _ _, hwf, trivial⟩).2.wellFormed
  obtain ⟨records', hrun⟩ := activate_of_admission Client.idle hadmitted
  rw [hrun] at hwf₁
  exact hwf₁.frame hwf₁.sound h.messages (h.log ++ records) h.client

end HostM

end Edl
