/-
Disposal removes every trace and is final.

A service that is wired up gives back its command and its four listeners, and its collection ends
empty and disposed.  What remains are three records that nobody refers to: the host is well-formed
in the scope of the others.  So no program of the others reaches them again, and none can tell what
they hold.

Main definitions:

* `Edl.Host.Buried` — what is left of a service.

Main results:

* `Edl.Host.Wired.wellFormed_withoutService` — after the disposal nobody refers to the service;
* `Edl.guarded_buried` — what is left of a service stays as it is;
* `Edl.HostM.admission_congr` — what a new service depends on;
* `Edl.HostM.disposal_is_final` — **disposal takes away exactly what is the service's, for good**.
-/

import Edl.Proofs.Wired

set_option relaxedAutoImplicit false
set_option autoImplicit false

namespace Edl

namespace Host

variable {σ : Type} {quiet : String → Prop} {s : ServiceId} {l : LinterId} {c : CollectionId}
  {h : Host σ}

/-! ### The host without the service -/

section

variable (h : Host σ) (s : ServiceId) (l : LinterId) (c : CollectionId) (x : Collection)

@[simp] theorem next_collections_withoutService :
    (h.withoutService s l c x).collections.next = h.collections.next :=
  Registry.next_modify ..

@[simp] theorem next_linters_withoutService :
    (h.withoutService s l c x).linters.next = h.linters.next :=
  Registry.next_modify ..

@[simp] theorem next_services_withoutService :
    (h.withoutService s l c x).services.next = h.services.next :=
  Registry.next_modify ..

variable {h s l c x}

/-- Other linters are as they were. -/
theorem linters_withoutService_of_ne {l' : LinterId} (hne : l' ≠ l) :
    (h.withoutService s l c x).linters.get? l'.number = h.linters.get? l'.number :=
  Registry.get?_modify_of_ne (LinterId.number_ne hne.symm)

/-- Other services are as they were. -/
theorem services_withoutService_of_ne {s' : ServiceId} (hne : s' ≠ s) :
    (h.withoutService s l c x).services.get? s'.number = h.services.get? s'.number :=
  Registry.get?_modify_of_ne (ServiceId.number_ne hne.symm)

end

/-- On each channel the service's own listener goes, and no other. -/
theorem listeners_withoutService (h : Host σ) (s : ServiceId) (l : LinterId) (c : CollectionId)
    (x : Collection) (channel : Channel) :
    ((h.withoutService s l c x).channels.get channel).listeners =
      (h.channels.get channel).listeners.erase (s.listener l channel) := by
  cases channel <;> rfl

/-- After the disposal nobody refers to the service, its linter or its collection. -/
theorem Wired.wellFormed_withoutService (hw : h.Wired quiet s l c) (hwf : h.WellFormed .all)
    (x : Collection) : (h.withoutService s l c x).WellFormed (.sparing s l c) where
  sound := hwf.sound
  fresh := by
    have hfresh := hw.fresh
    exact ⟨fun n hn => hfresh.collections n (by simpa using hn),
      fun n hn => hfresh.linters n (by simpa using hn),
      fun n hn => hfresh.services n (by simpa using hn)⟩
  listening := by
    intro channel y hy
    rw [listeners_withoutService] at hy
    obtain ⟨front, back, -, herase, hothers⟩ :=
      (hw.listeners channel).erase_own (not_listener_sparing s l c channel)
    refine ⟨hothers y (herase ▸ hy), ?_⟩
    have hthere := (hwf.listening channel y (List.mem_of_mem_erase hy)).2
    exact hthere.mono (by simp) (by simp)
  handling := by
    intro name y hy
    change (h.commands.erase validateCommand).find? name = some y at hy
    rw [Table.find?_erase] at hy
    split at hy
    · cases hy
    · next hne =>
        have hthere := (hwf.handling name y hy).2
        refine ⟨?_, hthere.mono (by simp)⟩
        cases y with
        | validateActive s' =>
            rintro rfl
            exact hne ((hw.command name).1 hy)
        | client number => trivial
  feeding := by
    intro l' x' hl' hx'
    rw [linters_withoutService_of_ne hl'] at hx'
    rw [next_collections_withoutService]
    exact ⟨hw.linters l' x' hl' hx', (hwf.feeding l' x' trivial hx').2⟩
  employing := by
    intro s' x' hs' hx'
    rw [services_withoutService_of_ne hs'] at hx'
    rw [next_linters_withoutService]
    exact ⟨hw.services s' x' hs' hx', (hwf.employing s' x' trivial hx').2⟩
  holding := by
    -- the command was the service's, so no other service holds it
    intro s' x' hs' hx' hheld
    rw [services_withoutService_of_ne hs'] at hx'
    have hfind := hwf.holding s' x' trivial hx' hheld
    rw [(hw.command validateCommand).2 rfl, Option.some.injEq, Handler.validateActive.injEq]
      at hfind
    exact absurd hfind.symm hs'
  once := by
    intro s' x' hs' hx'
    rw [services_withoutService_of_ne hs'] at hx'
    exact hwf.once s' x' trivial hx'

/-! ### What is left of the service -/

/-- What is left of a service: records that hold nothing, and its collection. -/
structure Buried (s : ServiceId) (l : LinterId) (c : CollectionId) (dead : Collection)
    (h : Host σ) : Prop where
  service : h.services.get? s.number = some ⟨l, []⟩
  linter : ∃ rules, h.linters.get? l.number = some ⟨rules, c, []⟩
  collection : h.collections.get? c.number = some dead

variable {dead : Collection}

/-- Nothing but the records matters. -/
theorem Buried.frame (hb : h.Buried s l c dead) (messages : List Message) (log : List Log.Record)
    (state : σ) : Buried s l c dead { h with messages, log, client := state } :=
  ⟨hb.service, hb.linter, hb.collection⟩

theorem Buried.storeOf?_eq (hb : h.Buried s l c dead) : h.storeOf? s = some dead := by
  obtain ⟨rules, hlinter⟩ := hb.linter
  simp [storeOf?, hb.service, hlinter, collection?, hb.collection]

theorem Wired.buried_withoutService (hw : h.Wired quiet s l c) (x : Collection) :
    (h.withoutService s l c x).Buried s l c x := by
  obtain ⟨rules, hlinter⟩ := hw.linter
  obtain ⟨store, hstore, -⟩ := hw.collection
  refine ⟨get?_setServiceHeld hw.service [], ⟨rules, get?_setLinterHeld hlinter []⟩, ?_⟩
  exact collection?_withStore_self hstore []

/-- What is left of a service stays as it is when others change something. -/
theorem Buried.update (hb : h.Buried s l c dead) {u : Update σ}
    (hu : u.Allowed (.sparing s l c) (.sparing s l c) h) : (u.apply h).Buried s l c dead := by
  obtain ⟨rules, hlinter⟩ := hb.linter
  cases u with
  | addCollection x =>
      exact ⟨hb.service, hb.linter, Registry.get?_add_of_get? hb.collection x⟩
  | changeCollection id f =>
      have hne := CollectionId.number_ne hu
      exact ⟨hb.service, hb.linter, (Registry.get?_modify_of_ne hne).trans hb.collection⟩
  | writeEntries id entries =>
      have hne := CollectionId.number_ne hu
      exact ⟨hb.service, hb.linter, (Registry.get?_modify_of_ne hne).trans hb.collection⟩
  | observe id name | unobserve id name =>
      have hne := CollectionId.number_ne (hu.resolve_right not_false)
      exact ⟨hb.service, hb.linter, (Registry.get?_modify_of_ne hne).trans hb.collection⟩
  | addLinter x =>
      exact ⟨hb.service, ⟨rules, Registry.get?_add_of_get? hlinter x⟩, hb.collection⟩
  | setLinterHeld id held =>
      have hne := LinterId.number_ne hu
      exact ⟨hb.service, ⟨rules, (Registry.get?_modify_of_ne hne).trans hlinter⟩, hb.collection⟩
  | addService x =>
      exact ⟨Registry.get?_add_of_get? hb.service x, hb.linter, hb.collection⟩
  | setServiceHeld id held =>
      have hne := ServiceId.number_ne hu.1
      exact ⟨(Registry.get?_modify_of_ne hne).trans hb.service, hb.linter, hb.collection⟩
  | workspace w => exact ⟨hb.service, hb.linter, hb.collection⟩
  | note messages log state => exact ⟨hb.service, hb.linter, hb.collection⟩
  | subscribe channel x => exact ⟨hb.service, hb.linter, hb.collection⟩
  | unsubscribe channel x => exact ⟨hb.service, hb.linter, hb.collection⟩
  | register name y => exact ⟨hb.service, hb.linter, hb.collection⟩
  | unregister name => exact ⟨hb.service, hb.linter, hb.collection⟩

end Host

/-- What is left of a service stays as it is, whatever others do and wherever they look. -/
theorem guarded_buried {σ : Type} (s : ServiceId) (l : LinterId) (c : CollectionId)
    (dead : Collection) :
    Guarded (.sparing s l c) (.sparing s l c) fun h g : Host σ =>
      h = g ∧ h.Buried s l c dead := by
  refine Guarded.of_update ?_
  rintro h g u - - ⟨rfl, hb⟩ hu
  exact ⟨rfl, hb.update hu⟩

namespace HostM

variable {σ τ : Type}

/-! ### A new service -/

/-- Whether a service is admitted depends on the documents, the configuration and the names of the
commands. -/
theorem admission_congr {h : Host σ} {g : Host τ} (rules : List Lint.Rule)
    (hdocuments : g.workspace.documents = h.workspace.documents)
    (hconfiguration : g.workspace.configuration = h.workspace.configuration)
    (hcommands : g.commands.keys = h.commands.keys) : g.admission rules = h.admission rules := by
  have hsettings : g.workspace.settings = h.workspace.settings := by
    rw [Workspace.settings, hconfiguration, Workspace.settings]
  have hscan : g.firstScan rules = h.firstScan rules := by
    rw [Host.firstScan, Host.firstScan, Workspace.scan_congr hsettings, hdocuments]
  have htaken : g.commands.contains validateCommand = h.commands.contains validateCommand := by
    rw [Bool.eq_iff_iff, Table.contains_iff, Table.contains_iff, hcommands]
  rw [Host.admission, Host.admission, hscan, htaken]

/-- Activation succeeds, or fails with the same fault, wherever the service is admitted alike. -/
theorem activate_fst_congr (client : Client σ) (client' : Client τ) {h : Host σ} {g : Host τ}
    {rules : List Lint.Rule} (hadmission : g.admission rules = h.admission rules) :
    (activate client' rules g).1.map (fun _ => ()) =
      (activate client rules h).1.map fun _ => () := by
  rw [activate_fst, activate_fst, hadmission]
  cases h.admission rules <;> rfl

/-! ### Disposing a service -/

/-- Disposing a service that is wired up, and that only harmless clients observe. -/
theorem deactivate_of_wired {client : Client σ} {quiet : String → Prop}
    (hquiet : ∀ name, quiet name → client.Harmless name) {h : Host σ} {s : ServiceId} {l : LinterId}
    {c : CollectionId} (hw : h.Wired quiet s l c) :
    ∃ (store : Collection) (messages : List Message) (log : List Log.Record) (state : σ),
      deactivate client s h =
        (.ok (), Host.logged { h.withoutService s l c store.clear.retire with
          messages, log, client := state } .deactivated) := by
  obtain ⟨rules, hlinter⟩ := hw.linter
  obtain ⟨store, hstore, halive, hobservers⟩ := hw.collection
  have hwatched : h.Watched client l ⟨rules, c, Linter.acquired⟩ store :=
    ⟨hlinter, hstore, halive, fun name hname => hquiet name (hobservers name hname)⟩
  obtain ⟨_, hrun, messages, log, state, rfl, -⟩ :=
    deactivate_of_watched client hw.service rfl hwatched rfl
  exact ⟨store, messages, log, state, hrun⟩

/-- **Disposal removes every trace and is final.**  A service was activated on a host with whatever
listeners and commands there were, and others went on with programs that keep their hands off it.
Some of them may observe its collection, as long as they are harmless: told about a document, they
do not fail and leave nothing behind but messages, log records and what they remember.  Disposing
the service succeeds and takes away its command and its one listener on each channel; the workspace
and all other registrations stay, in order, and its collection is empty and disposed.  Whatever
others do from then on, the collection stays so and nothing refers to the service; how their
programs end does not depend on what is left of it; disposing it again only writes to the log; and a
new service is admitted or refused as on any host with the same documents, configuration and
commands. -/
theorem disposal_is_final {h₀ h₁ h₂ : Host σ} (hh : h₀.Reachable) {client : Client σ}
    {rules : List Lint.Rule} {s : ServiceId} (hactivate : activate client rules h₀ = (.ok s, h₁))
    {quiet : String → Prop} (hquiet : ∀ name, quiet name → client.Harmless name)
    (hleads : h₁.Leads .all (h₀.others quiet) h₂) :
    ∃ h₃ dead, deactivate client s h₂ = (.ok (), h₃) ∧
      h₃.workspace = h₂.workspace ∧
      (∀ name, h₂.commands.find? name = some (.validateActive s) ↔ name = validateCommand) ∧
      h₃.commands = h₂.commands.erase validateCommand ∧
      (∀ channel, ∃ front back,
        (h₂.channels.get channel).listeners =
          front ++ s.listener ⟨h₀.linters.next⟩ channel :: back ∧
        (h₃.channels.get channel).listeners = front ++ back ∧
        ∀ x ∈ front ++ back, h₀.others.listener x) ∧
      h₃.storeOf? s = some dead ∧ dead.entries = .empty ∧ dead.disposed = true ∧
      ∀ h₄, h₃.Leads .all h₀.others h₄ →
        h₄.storeOf? s = some dead ∧
        (∀ channel, ∀ x ∈ (h₄.channels.get channel).listeners, h₀.others.listener x) ∧
        (∀ name y, h₄.commands.find? name = some y → h₀.others.handler y) ∧
        (∀ (α : Type) (act : HostM σ α) (g : Host σ), act.Within h₀.others h₀.others →
          h₄.Agrees h₀.others g →
            (act h₄).1 = (act g).1 ∧ (act h₄).2.Agrees h₀.others (act g).2) ∧
        deactivate client s h₄ = (.ok (), h₄.logged .deactivated) ∧
        ∀ (τ : Type) (g : Host τ) (client' : Client τ) (rules' : List Lint.Rule),
          g.workspace.documents = h₄.workspace.documents →
          g.workspace.configuration = h₄.workspace.configuration →
          g.commands.keys = h₄.commands.keys →
            (activate client rules' h₄).1.map (fun _ => ()) =
              (activate client' rules' g).1.map fun _ => () := by
  obtain ⟨-, rfl, -⟩ := activated_of_activate hactivate
  -- the service is wired up when it is activated, and stays so
  obtain ⟨hw₁, hwf₁⟩ := wired_of_activate quiet hh.wellFormed hactivate
  obtain ⟨-, hwf₂, hw₂⟩ := (guarded_wired quiet _ _ _).alike_of_leads (fun _ _ hR => hR.agrees)
    hleads ⟨.refl _ _, hwf₁, hw₁⟩
  obtain ⟨store, messages, log, state, hdeactivate⟩ := deactivate_of_wired hquiet hw₂
  -- what is left is buried, and nobody refers to it
  have hb₃ := (hw₂.buried_withoutService store.clear.retire).frame messages
    (log ++ [.deactivated]) state
  have hwf₃ := hw₂.wellFormed_withoutService hwf₂ store.clear.retire
  have hwf₃' := hwf₃.frame hwf₃.sound messages (log ++ [.deactivated]) state
  refine ⟨_, store.clear.retire, hdeactivate, rfl, hw₂.command, rfl, fun channel => ?_,
    hb₃.storeOf?_eq, rfl, rfl, fun h₄ hlater => ?_⟩
  · obtain ⟨front, back, hlisteners, herase, hothers⟩ :=
      (hw₂.listeners channel).erase_own (Host.not_listener_sparing _ _ _ channel)
    refine ⟨front, back, hlisteners, ?_, hothers⟩
    rw [← herase]
    exact Host.listeners_withoutService h₂ _ _ ⟨h₀.collections.next⟩ store.clear.retire channel
  · obtain ⟨-, hwf₄, -, hb₄⟩ := (guarded_buried _ _ _ store.clear.retire).alike_of_leads
      (fun h g hR => hR.related.1 ▸ Host.Agrees.refl _ h) hlater ⟨.refl _ _, hwf₃', rfl, hb₃⟩
    refine ⟨hb₄.storeOf?_eq, fun channel x hx => (hwf₄.listening channel x hx).1,
      fun name y hy => (hwf₄.handling name y hy).1, fun α act g hact hagrees => ?_,
      deactivate_of_released client hb₄.service rfl,
      fun τ g client' rules' hdocuments hconfiguration hcommands =>
        (activate_fst_congr client client'
          (admission_congr rules' hdocuments hconfiguration hcommands)).symm⟩
    have hrespects := (Guarded.unconstrained h₀.others).respects_of_within
      (fun _ _ hR => hR.agrees) hact h₄ g ⟨hagrees, hwf₄, trivial⟩
    exact ⟨hrespects.1, hrespects.2.agrees⟩

/-- The client that shows a message whenever it is told something. -/
def announcer : Client Unit :=
  ⟨fun _ _ => showInformation "told", fun _ => pure .null⟩

theorem disposal_is_final_watched :
    ∃ (h₀ h₁ h₂ h₃ : Host Unit) (dead : Collection),
      h₀.Reachable ∧ (h₀.channels.get .opened).listeners = [.client "watch"] ∧
      activate announcer [] h₀ = (.ok ⟨0⟩, h₁) ∧
      (observe ⟨0⟩ "look" h₁).2.after announcer [.openDocument "b" "x"] = h₂ ∧
      (h₂.storeOf? ⟨0⟩).map (fun c => (c.entries.keys, c.emitter.listeners)) =
        some (["a", "b"], ["look"]) ∧
      deactivate announcer ⟨0⟩ h₂ = (.ok (), h₃) ∧
      h₃.commands.find? validateCommand = none ∧
      (h₃.after announcer [.changeDocument "b" "y"]).storeOf? ⟨0⟩ = some dead ∧
      dead.entries = .empty ∧ dead.disposed = true := by
  have hclient : ∀ hands, announcer.Within .all hands := fun hands =>
    have hidle := Client.within_idle .all hands
    ⟨fun _ _ => hidle.act (.showInformation "told") trivial, fun _ => .pure Config.Value.null⟩
  have hharmless : ∀ name, True → announcer.Harmless name := fun _ _ _ _ => ⟨_, _, _, rfl⟩
  have hlook : ∀ h : Host Unit,
      (Action.observe ⟨0⟩ "look").Permitted (h.others fun _ => True) := fun _ => Or.inr trivial
  have hcreate : Workspace.create [] = .ok { configuration := Config.flatten [] } := rfl
  have hh : Host.Reachable _ := ⟨_, _, (), hcreate,
    (Host.Leads.refl.step ((hclient .all).act (.subscribe .opened "watch") trivial)).step
      ((hclient .all).act (.openDocument "a" "x" edlLanguage) trivial)⟩
  obtain ⟨h₃, dead, hdeactivate, -, -, hcommands, -, -, hempty, hdisposed, hfinal⟩ :=
    @disposal_is_final Unit _ _ _ hh announcer [] _ rfl _ hharmless ((hclient _).leads_after
      (Host.Leads.refl.step ((hclient _).act (.observe ⟨0⟩ "look") (hlook _)))
      [.openDocument "b" "x"])
  obtain ⟨hstore, -⟩ := hfinal _ ((hclient _).leads_after .refl [.changeDocument "b" "y"])
  have hgone : h₃.commands.find? validateCommand = none := by
    rw [hcommands, Table.find?_erase_self]
  exact ⟨_, _, _, h₃, dead, hh, rfl, rfl, rfl, rfl, hdeactivate, hgone, hstore, hempty, hdisposed⟩

end HostM

end Edl
