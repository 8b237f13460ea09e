/-
What clients may do, and the hosts that can come about.

Clients act on a host through its operations only: they make requests, listen, register commands,
keep collections and linters of their own, activate services and dispose them, and when they are
called back they do more of the same.  `Edl.Action` lists the operations and `Edl.HostM.Within` is
the class of programs made of them.  A program is confined by two scopes: it looks at the records in
`eyes` only, and lays hands on the records in `hands` only.

Main definitions:

* `Edl.Action`, `Edl.HostM.act` — the operations of a host as data, and carrying them out;
* `Edl.HostM.Within`, `Edl.Client.Within` — programs, and clients, that keep to two scopes;
* `Edl.Host.Leads`, `Edl.Host.Reachable` — the hosts that such programs lead to.

Main results:

* `Edl.Guarded.respects_of_within` — **programs respect every guarded relation** on hosts that they
  cannot tell apart;
* `Edl.Client.Within.leads_after` — requests are such programs;
* `Edl.Host.Reachable.wellFormed` — reachable hosts are well-formed.
-/

import Edl.Proofs.HostOperations

set_option relaxedAutoImplicit false
set_option autoImplicit false

namespace Edl

/-! ### Programs of clients -/

/-- What can be asked of a host, with the type of the answer. -/
inductive Action : Type → Type where
  | openDocument (uri text language : String) : Action Document
  | changeDocument (uri text : String) : Action Document
  | closeDocument (uri : String) : Action Unit
  | setActive (uri : Option String) : Action Unit
  | updateConfiguration (entries : List (String × Config.Value)) : Action Unit
  | execute (name : String) : Action Answer
  | showInformation (text : String) : Action Unit
  | showWarning (text : String) : Action Unit
  -- registrations of clients
  | subscribe (channel : Channel) (name : String) : Action (Subscription Registration)
  | unsubscribe (channel : Channel) (name : String) : Action Unit
  | registerCommand (command : String) (number : Nat) : Action (Subscription Registration)
  | unregisterCommand (command : String) : Action Unit
  | observe (id : CollectionId) (name : String) : Action (Subscription Registration)
  | unobserve (id : CollectionId) (name : String) : Action Unit
  -- collections, linters and services
  | newCollection (name : String) : Action CollectionId
  | writeEntry (id : CollectionId) (uri : String) (e : Entry) : Action Bool
  | deleteEntry (id : CollectionId) (uri : String) : Action Unit
  | clearEntries (id : CollectionId) : Action Unit
  | disposeCollection (id : CollectionId) : Action Unit
  | attachLinter (rules : List Lint.Rule) : Action LinterId
  | attachLinterTo (id : CollectionId) (rules : List Lint.Rule) : Action (Option LinterId)
  | validate (id : LinterId) (d : Document) : Action (List Diagnostic)
  | revalidate (id : LinterId) : Action Unit
  | disposeLinter (id : LinterId) : Action Unit
  | activate (rules : List Lint.Rule) : Action ServiceId
  | validateActive (id : ServiceId) : Action (Option (List Diagnostic))
  | deactivate (id : ServiceId) : Action Unit

/-- An action lays hands on nothing outside the scope. -/
def Action.Permitted (S : Scope) : {α : Type} → Action α → Prop
  | _, observe id name | _, unobserve id name => S.observer id name
  | _, writeEntry id _ _ | _, deleteEntry id _ => S.collection id
  | _, clearEntries id | _, disposeCollection id => S.collection id
  | _, attachLinterTo id _ => S.collection id
  | _, validate id _ | _, revalidate id | _, disposeLinter id => S.linter id
  | _, validateActive id | _, deactivate id => S.service id
  | _, _ => True

namespace HostM

variable {σ : Type}

/-- Gives back a command that is a client's. -/
def unregisterCommand (command : String) : HostM σ Unit := do
  match (← get).commands.find? command with
  | some (.client _) => dispose ⟨some (.command command)⟩
  | _ => pure ()

/-- Attaches a linter to a collection that is there. -/
def attachLinterTo (client : Client σ) (id : CollectionId) (rules : List Lint.Rule) :
    HostM σ (Option LinterId) := do
  match (← get).collection? id with
  | some _ => return some (← attachLinter client rules (some id))
  | none => return none

/-- Carries out an action. -/
def act (client : Client σ) : {α : Type} → Action α → HostM σ α
  | _, .openDocument uri text language => openDocument client uri text language
  | _, .changeDocument uri text => changeDocument client uri text
  | _, .closeDocument uri => closeDocument client uri
  | _, .setActive uri => setActive uri
  | _, .updateConfiguration entries => updateConfiguration client entries
  | _, .execute name => execute client name
  | _, .showInformation text => showInformation text
  | _, .showWarning text => showWarning text
  | _, .subscribe channel name => subscribe channel (.client name)
  | _, .unsubscribe channel name => dispose ⟨some (.listener channel (.client name))⟩
  | _, .registerCommand command number => registerCommand command (.client number)
  | _, .unregisterCommand command => unregisterCommand command
  | _, .observe id name => observe id name
  | _, .unobserve id name => dispose ⟨some (.observer id name)⟩
  | _, .newCollection name => newCollection name
  | _, .writeEntry id uri e => writeEntry client id uri e
  | _, .deleteEntry id uri => deleteEntry client id uri
  | _, .clearEntries id => clearEntries client id
  | _, .disposeCollection id => disposeCollection client id
  | _, .attachLinter rules => attachLinter client rules
  | _, .attachLinterTo id rules => attachLinterTo client id rules
  | _, .validate id d => validate client id d
  | _, .revalidate id => revalidate client id
  | _, .disposeLinter id => disposeLinter client id
  | _, .activate rules => activate client rules
  | _, .validateActive id => validateActive client id
  | _, .deactivate id => deactivate client id

/-- Programs made of actions.  They see only the records in the scope `eyes` and lay hands only on
those in the scope `hands`; the clients that are called back on the way do so too. -/
inductive Within (eyes hands : Scope) : {α : Type} → HostM σ α → Prop where
  | pure {α : Type} (a : α) : Within eyes hands (pure a)
  | throw {α : Type} (f : Fault) : Within eyes hands (throw f : HostM σ α)
  | bind {α β : Type} {first : HostM σ α} {next : α → HostM σ β} :
      Within eyes hands first → (∀ a, Within eyes hands (next a)) →
        Within eyes hands (first >>= next)
  | attempt {α : Type} {act : HostM σ α} : Within eyes hands act → Within eyes hands (attempt act)
  | look {α : Type} (view : Host σ → α) (hview : ∀ h g, h.Agrees eyes g → view h = view g) :
      Within eyes hands (do return view (← get))
  | remember (f : σ → σ) : Within eyes hands (modify fun h => { h with client := f h.client })
  | act {α : Type} {client : Client σ} (a : Action α) (ha : a.Permitted hands) :
      (∀ name event, Within eyes hands (client.notify name event)) →
        (∀ number, Within eyes hands (client.invoke number)) → Within eyes hands (act client a)

end HostM

/-- Clients that keep to two scopes. -/
structure Client.Within {σ : Type} (eyes hands : Scope) (client : Client σ) : Prop where
  notify : ∀ name event, HostM.Within eyes hands (client.notify name event)
  invoke : ∀ number, HostM.Within eyes hands (client.invoke number)

/-- Programs that keep to two scopes lead from one host to another. -/
inductive Host.Leads {σ : Type} (eyes hands : Scope) (h : Host σ) : Host σ → Prop where
  | refl : Host.Leads eyes hands h h
  | step {α : Type} {act : HostM σ α} {h' : Host σ} (hleads : Host.Leads eyes hands h h')
      (hact : act.Within eyes hands) : Host.Leads eyes hands h (act h').2

/-- The hosts that clients can bring about, from one to which nothing is attached. -/
def Host.Reachable {σ : Type} (h : Host σ) : Prop :=
  ∃ entries w state, Workspace.create entries = .ok w ∧
    Host.Leads .all .all { workspace := w, client := state } h

/-! ### Requests are programs -/

theorem HostM.discard_eq_bind {σ α : Type} (act : HostM σ α) :
    (discard act : HostM σ PUnit) = act >>= fun _ => pure PUnit.unit := by
  funext h
  rw [discard_apply, bind_apply]
  rcases act h with ⟨_ | _, _⟩ <;> rfl

section

variable {σ : Type} {eyes hands : Scope} {client : Client σ}

theorem Client.within_idle (eyes hands : Scope) : (idle : Client σ).Within eyes hands :=
  ⟨fun _ _ => .pure (), fun _ => .pure Config.Value.null⟩

theorem Client.Within.act (hclient : client.Within eyes hands) {α : Type} (a : Action α)
    (ha : a.Permitted hands) : HostM.Within eyes hands (HostM.act client a) :=
  .act a ha hclient.notify hclient.invoke

theorem Client.Within.perform (hclient : client.Within eyes hands) (r : Request) :
    HostM.Within eyes hands (HostM.perform client r) := by
  cases r with
  | openDocument uri text language =>
      rw [HostM.perform, HostM.discard_eq_bind]
      exact .bind (hclient.act (.openDocument uri text language) trivial) fun _ => .pure _
  | changeDocument uri text =>
      rw [HostM.perform, HostM.discard_eq_bind]
      exact .bind (hclient.act (.changeDocument uri text) trivial) fun _ => .pure _
  | closeDocument uri => exact hclient.act (.closeDocument uri) trivial
  | setActive uri => exact hclient.act (.setActive uri) trivial
  | updateConfiguration entries => exact hclient.act (.updateConfiguration entries) trivial
  | execute name =>
      rw [HostM.perform, HostM.discard_eq_bind]
      exact .bind (hclient.act (.execute name) trivial) fun _ => .pure _

/-- Requests lead from a host to the one after them. -/
theorem Client.Within.leads_after (hclient : client.Within eyes hands) {h h' : Host σ}
    (hleads : h.Leads eyes hands h') (rs : List Request) :
    h.Leads eyes hands (h'.after client rs) := by
  induction rs generalizing h' with
  | nil => exact hleads
  | cons r rs ih =>
      rw [Host.after_cons]
      exact ih (hleads.step (hclient.perform r))

end

/-! ### Programs respect guarded relations -/

namespace Guarded

open HostM

variable {σ : Type} {eyes hands ears : Scope} {Q : Host σ → Host σ → Prop}

theorem respects_unregisterCommand (hG : Guarded hands ears Q) (command : String) :
    Respects (Alike ears Q) (unregisterCommand command : HostM σ Unit) := by
  intro h g hR
  unfold unregisterCommand
  refine RespectsAt.get_bind (by rw [hR.agrees.commands]) ?_
  cases hfind : h.commands.find? command with
  | none => exact Respects.pure () h g hR
  | some y =>
      cases y with
      | validateActive s => exact Respects.pure () h g hR
      | client number =>
          refine RespectsAt.modify (hR.update hG (.unregister command) ⟨fun y hy => ?_, ?_⟩)
          · rw [hfind] at hy
            obtain rfl := Option.some.inj hy
            trivial
          · -- what a service holds is not a client's
            rintro s x hs hx hheld rfl
            have hservice := hR.wellFormed.holding s x hs hx hheld
            rw [hfind] at hservice
            cases hservice

theorem respects_attachLinterTo (hG : Guarded hands ears Q) {client : Client σ}
    (hclient : client.Respects (Alike ears Q)) {id : CollectionId} (hid : hands.collection id)
    (rules : List Lint.Rule) : Respects (Alike ears Q) (attachLinterTo client id rules) := by
  intro h g hR
  unfold attachLinterTo
  refine RespectsAt.get_bind (by rw [hR.agrees.collection?_eq (hG.le.collection id hid)]) ?_
  cases hc : h.collection? id with
  | none => exact Respects.pure none h g hR
  | some c =>
      have hlt : id.number < h.collections.next := Registry.lt_next_of_get? hc
      have hattach := hG.respectsAt_attachLinter hclient hR rules (some id) (by
        rintro c' ⟨⟩
        exact ⟨hid, hlt⟩)
      exact hattach.bind fun l h₁ g₁ _ hR₁ => Respects.pure (some l) h₁ g₁ hR₁

/-- Actions respect a guarded relation, one by one. -/
theorem respects_act (hG : Guarded hands ears Q) {client : Client σ}
    (hclient : client.Respects (Alike ears Q)) {α : Type} (a : Action α)
    (ha : a.Permitted hands) : Respects (Alike ears Q) (act client a) := by
  cases a with
  | openDocument uri text language => exact hG.respects_openDocument hclient uri text language
  | changeDocument uri text => exact hG.respects_changeDocument hclient uri text
  | closeDocument uri => exact hG.respects_closeDocument hclient uri
  | setActive uri => exact hG.respects_setActive uri
  | updateConfiguration entries => exact hG.respects_updateConfiguration hclient entries
  | execute name => exact hG.respects_execute hclient name
  | showInformation text => exact hG.respects_showInformation text
  | showWarning text => exact hG.respects_showWarning text
  | subscribe channel name =>
      exact fun h g hR => hG.respectsAt_subscribe hR channel (.client name) trivial trivial
  | unsubscribe channel name =>
      exact fun h g hR =>
        RespectsAt.modify (hR.update hG (.unsubscribe channel (.client name)) trivial)
  | registerCommand command number =>
      exact fun h g hR => hG.respectsAt_registerCommand hR command (.client number) trivial trivial
  | unregisterCommand command => exact hG.respects_unregisterCommand command
  | observe id name => exact fun h g hR => ⟨rfl, hR.update hG (.observe id name) ha⟩
  | unobserve id name => exact fun h g hR => ⟨rfl, hR.update hG (.unobserve id name) ha⟩
  | newCollection name => exact hG.respects_newCollection name
  | writeEntry id uri e => exact hG.respects_writeEntry hclient (hG.le.collection id ha) uri e
  | deleteEntry id uri => exact hG.respects_deleteEntry hclient (hG.le.collection id ha) uri
  | clearEntries id => exact hG.respects_clearEntries hclient (hG.le.collection id ha)
  | disposeCollection id => exact hG.respects_disposeCollection hclient ha
  | attachLinter rules =>
      exact fun h g hR => hG.respectsAt_attachLinter hclient hR rules none (by simp)
  | attachLinterTo id rules => exact hG.respects_attachLinterTo hclient ha rules
  | validate id d => exact hG.respects_validate hclient (hG.le.linter id ha) d
  | revalidate id => exact hG.respects_revalidate hclient (hG.le.linter id ha)
  | disposeLinter id => exact hG.respects_disposeLinter hclient ha
  | activate rules => exact hG.respects_activate hclient rules
  | validateActive id => exact hG.respects_validateActive hclient (hG.le.service id ha)
  | deactivate id => exact hG.respects_deactivate hclient ha

/-- **Programs respect a guarded relation** if they cannot see where related hosts differ. -/
theorem respects_of_within (hG : Guarded hands ears Q)
    (heyes : ∀ h g, Alike ears Q h g → h.Agrees eyes g) {α : Type} {act : HostM σ α}
    (hact : act.Within eyes hands) : Respects (Alike ears Q) act := by
  induction hact with
  | pure a => exact Respects.pure a
  | throw f => exact Respects.throw f
  | bind _ _ ihfirst ihnext => exact Respects.bind ihfirst ihnext
  | attempt _ ih => exact fun h g hR => (ih h g hR).attempt
  | look view hview =>
      exact fun h g hR => ⟨congrArg Except.ok (hview h g (heyes h g hR)), hR⟩
  | remember f =>
      intro h g hR
      have hnote := hR.update hG (.note [] [] f) trivial
      simp only [Update.apply, List.append_nil] at hnote
      exact RespectsAt.modify hnote
  | act a ha _ _ ihnotify ihinvoke => exact hG.respects_act ⟨ihnotify, ihinvoke⟩ a ha

/-- Hosts that programs lead to are in the relation if the first one is. -/
theorem alike_of_leads (hG : Guarded hands ears Q)
    (heyes : ∀ h g, Alike ears Q h g → h.Agrees eyes g) {h h' : Host σ}
    (hleads : h.Leads eyes hands h') (hR : Alike ears Q h h) : Alike ears Q h' h' := by
  induction hleads with
  | refl => exact hR
  | step _ hact ih => exact (hG.respects_of_within heyes hact _ _ ih).2

/-- In a single scope, everything that allowed updates keep is guarded. -/
theorem of_update {S : Scope}
    (hupdate : ∀ h g (u : Update σ), h.Agrees S g → h.WellFormed S → Q h g → u.Allowed S S h →
      Q (u.apply h) (u.apply g)) : Guarded S S Q where
  le := .refl S
  fresh := fun _ _ hwf _ => hwf.fresh
  feeding := fun _ _ hwf _ l x hl hx => (hwf.feeding l x hl hx).1
  employing := fun _ _ hwf _ s x hs hx => (hwf.employing s x hs hx).1
  update := hupdate

theorem unconstrained (S : Scope) : Guarded S S fun _ _ : Host σ => True :=
  of_update fun _ _ _ _ _ _ _ => trivial

end Guarded

/-! ### Reachable hosts -/

/-- Reachable hosts are well-formed. -/
theorem Host.Reachable.wellFormed {σ : Type} {h : Host σ} (hh : h.Reachable) :
    h.WellFormed .all := by
  obtain ⟨entries, w, state, hcreate, hleads⟩ := hh
  have hstart := wellFormed_start (Workspace.sound_of_create hcreate) state
  exact ((Guarded.unconstrained .all).alike_of_leads (fun _ _ => Alike.agrees) hleads
    ⟨.refl _ _, hstart, trivial⟩).wellFormed

end Edl
