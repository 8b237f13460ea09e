/-
The outcome of activating a service.

Whether a service can be activated depends on three things in turn: that its rule list passes the
check, that every open document of the language can be scanned with it, and that its command is not
taken.  `Edl.Host.admission` puts them into one result.  If it is a fault, activating ends with that
fault and takes back whatever had been acquired by then; otherwise the service is wired up.  No
client is reached either way, since the new collection has no observers.

Main definitions:

* `Edl.Host.admission` — the conditions for a service, and the fault of the first that is missed;
* `Edl.Host.attached`, `Edl.Host.activated` — the host with a linter, or with a service;
* `Edl.Host.Restored` — a host in which everything from before is as it was;
* `Edl.Host.Unheard` — nobody listens under the number that the next linter will be given.

Main results:

* `Edl.HostM.attachLinter_of_scans`, `Edl.HostM.attachLinter_of_fault` — attaching a linter;
* `Edl.HostM.activate_of_admission`, `Edl.HostM.activate_of_refusal` — activating a service;
* `Edl.HostM.activate_fst` — the result is that of the admission.
-/

import Edl.Proofs.Release

set_option relaxedAutoImplicit false
set_option autoImplicit false

namespace Edl

namespace Channels

/-- The channels with a linter subscribed on three of them. -/
def withLinter (cs : Channels) (id : LinterId) : Channels :=
  { cs with
    opened := cs.opened.subscribe (.linter id)
    changed := cs.changed.subscribe (.linter id)
    closed := cs.closed.subscribe (.linter id) }

end Channels

theorem Emitter.release_subscribe {ι : Type} [BEq ι] [LawfulBEq ι] {e : Emitter ι} {l : ι}
    (h : l ∉ e.listeners) : (e.subscribe l).release l = e := by
  refine congrArg Emitter.mk ?_
  rw [listeners_subscribe, List.erase_append_right _ h]
  simp

namespace Host

variable {σ : Type}

/-- What a service starts with: a collection without entries. -/
def freshCollection : Collection :=
  { name := edlLanguage }

/-- The findings in the open documents, in a new collection, or the first fault. -/
def firstScan (h : Host σ) (rules : List Lint.Rule) : Except Fault Unit × Collection :=
  Collection.rescan (h.workspace.scan rules) h.workspace.documents.values freshCollection

/-- The conditions for activating a service, and the fault of the first that is missed. -/
def admission (h : Host σ) (rules : List Lint.Rule) : Except Fault Unit := do
  Lint.checkRules rules
  (h.firstScan rules).1
  if h.commands.contains validateCommand then .error (.commandTaken validateCommand) else .ok ()

/-- The host with a new linter on a new collection. -/
def attached (h : Host σ) (rules : List Lint.Rule) (c : Collection) (records : List Log.Record) :
    Host σ :=
  { h with
    channels := h.channels.withLinter ⟨h.linters.next⟩
    log := h.log ++ records
    collections := h.collections.add c
    linters := h.linters.add ⟨rules, ⟨h.collections.next⟩, Linter.acquired⟩ }

/-- The host with a new service on a new linter. -/
def activated (h : Host σ) (rules : List Lint.Rule) (c : Collection)
    (records : List Log.Record) : Host σ :=
  { h.attached rules c records with
    channels := (h.channels.withLinter ⟨h.linters.next⟩).modify .configured
      (·.subscribe (.service ⟨h.services.next⟩))
    commands := h.commands.insert validateCommand (.validateActive ⟨h.services.next⟩)
    services := h.services.add ⟨⟨h.linters.next⟩, Service.acquired⟩ }

/-- Nobody listens under the number that the next linter will be given. -/
def Unheard (h : Host σ) : Prop :=
  ∀ channel, .linter ⟨h.linters.next⟩ ∉ (h.channels.get channel).listeners

/-- Everything that was there before is as it was; what was added since is held by nobody. -/
structure Restored (h h' : Host σ) : Prop where
  workspace : h'.workspace = h.workspace
  channels : h'.channels = h.channels
  commands : h'.commands = h.commands
  messages : h'.messages = h.messages
  client : h'.client = h.client
  collections : ∀ n < h.collections.next, h'.collections.get? n = h.collections.get? n
  linters : ∀ n < h.linters.next, h'.linters.get? n = h.linters.get? n
  services : ∀ n < h.services.next, h'.services.get? n = h.services.get? n

variable {h : Host σ}

theorem Restored.refl (h : Host σ) : h.Restored h :=
  ⟨rfl, rfl, rfl, rfl, rfl, fun _ _ => rfl, fun _ _ => rfl, fun _ _ => rfl⟩

/-- The collection that a service writes to. -/
def storeOf? (h : Host σ) (s : ServiceId) : Option Collection := do
  let service ← h.services.get? s.number
  let linter ← h.linters.get? service.linter.number
  h.collection? linter.collection

/-- A service that was there before has its collection as it was. -/
theorem Restored.storeOf?_eq {h' : Host σ} (hr : h.Restored h') {s : ServiceId} {c : Collection}
    (hstore : h.storeOf? s = some c) : h'.storeOf? s = some c := by
  simp only [storeOf?, Option.bind_eq_bind, Option.bind_eq_some_iff] at hstore ⊢
  obtain ⟨service, hservice, linter, hlinter, hcollection⟩ := hstore
  refine ⟨service, ?_, linter, ?_, ?_⟩
  · rw [hr.services _ (Registry.lt_next_of_get? hservice), hservice]
  · rw [hr.linters _ (Registry.lt_next_of_get? hlinter), hlinter]
  · rw [collection?, hr.collections _ (Registry.lt_next_of_get? hcollection)]
    exact hcollection

/-- The new linter feeds the new collection. -/
theorem feeds_attached (h : Host σ) (rules : List Lint.Rule) {c : Collection}
    (records : List Log.Record) (halive : c.disposed = false)
    (hunobserved : c.emitter.listeners = []) :
    (h.attached rules c records).Feeds ⟨h.linters.next⟩
      ⟨rules, ⟨h.collections.next⟩, Linter.acquired⟩ c where
  linter_eq := Registry.get?_add_next ..
  collection_eq := Registry.get?_add_next ..
  alive := halive
  unobserved := hunobserved

/-- Writing to the collection of a new linter is attaching it with another one. -/
theorem withStore_attached (h : Host σ) (rules : List Lint.Rule) (c c' : Collection)
    (records records' : List Log.Record) :
    (h.attached rules c records).withStore ⟨h.collections.next⟩ c' records' =
      h.attached rules c' (records ++ records') := by
  simp only [withStore, attached, Registry.modify_add_next, List.append_assoc]

/-- Taking a new linter off its channels gives the channels from before. -/
theorem withoutLinter_withLinter (hun : h.Unheard) :
    (h.channels.withLinter ⟨h.linters.next⟩).withoutLinter ⟨h.linters.next⟩ = h.channels := by
  have hopened := Emitter.release_subscribe (hun .opened)
  have hchanged := Emitter.release_subscribe (hun .changed)
  have hclosed := Emitter.release_subscribe (hun .closed)
  simp only [Channels.get] at hopened hchanged hclosed
  simp only [Channels.withoutLinter, Channels.withLinter, hopened, hchanged, hclosed]

/-- Releasing a new linter restores the host. -/
theorem restored_withoutLinter (hun : h.Unheard) (rules : List Lint.Rule) (c c' : Collection)
    (records : List Log.Record) :
    h.Restored ((h.attached rules c records).withoutLinter ⟨h.linters.next⟩
      ⟨h.collections.next⟩ c') where
  workspace := rfl
  channels := withoutLinter_withLinter hun
  commands := rfl
  messages := rfl
  client := rfl
  collections := by
    intro n hn
    change ((h.collections.add c).modify h.collections.next _).get? n = _
    rw [Registry.get?_modify_of_ne (by omega), Registry.get?_add_of_lt hn]
  linters := by
    intro n hn
    change ((h.linters.add _).modify h.linters.next _).get? n = _
    rw [Registry.get?_modify_of_ne (by omega), Registry.get?_add_of_lt hn]
  services := fun _ _ => rfl

theorem firstScan_frame (h : Host σ) (rules : List Lint.Rule) :
    (h.firstScan rules).2.disposed = false ∧ (h.firstScan rules).2.emitter.listeners = [] := by
  obtain ⟨-, hemitter, hdisposed⟩ :
      (h.firstScan rules).2.name = freshCollection.name ∧
        (h.firstScan rules).2.emitter = freshCollection.emitter ∧
        (h.firstScan rules).2.disposed = freshCollection.disposed :=
    Collection.rescan_frame h.workspace.documents.values freshCollection
  exact ⟨hdisposed, congrArg Emitter.listeners hemitter⟩

end Host

namespace HostM

variable {σ : Type} {h : Host σ} {rules : List Lint.Rule}

/-! ### Attaching a linter -/

/-- Up to the first scan, attaching a linter with a valid rule list cannot fail. -/
theorem attachLinter_of_valid (client : Client σ) (hrules : Lint.checkRules rules = .ok ()) :
    attachLinter client rules none h =
      (do
        orUndo (revalidate client ⟨h.linters.next⟩) (disposeLinter client ⟨h.linters.next⟩)
        return ⟨h.linters.next⟩ : HostM σ LinterId) (h.attached rules Host.freshCollection []) := by
  have hattached : h.attached rules Host.freshCollection [] =
      { h with
        channels := h.channels.withLinter ⟨h.linters.next⟩
        collections := h.collections.add Host.freshCollection
        linters := h.linters.add ⟨rules, ⟨h.collections.next⟩, Linter.acquired⟩ } := by
    rw [Host.attached, List.append_nil]
  unfold attachLinter
  rw [hrules, bind_of_ok (ofExcept_apply _ h), hattached]
  rfl

/-- The first scan writes what is found to the new collection. -/
theorem revalidate_attached (client : Client σ) (h : Host σ) (rules : List Lint.Rule) :
    ∃ records, revalidate client ⟨h.linters.next⟩ (h.attached rules Host.freshCollection []) =
      ((h.firstScan rules).1, h.attached rules (h.firstScan rules).2 records) := by
  have hf := h.feeds_attached rules (c := Host.freshCollection) [] rfl rfl
  obtain ⟨records, hscan⟩ := revalidate_of_feeds client hf
  rw [Host.withStore_attached] at hscan
  exact ⟨records, hscan⟩

/-- Attaching a linter when every open document can be scanned. -/
theorem attachLinter_of_scans (client : Client σ) (hrules : Lint.checkRules rules = .ok ())
    (hscan : (h.firstScan rules).1 = .ok ()) :
    ∃ records, attachLinter client rules none h =
      (.ok ⟨h.linters.next⟩, h.attached rules (h.firstScan rules).2 records) := by
  obtain ⟨records, hrevalidate⟩ := revalidate_attached client h rules
  rw [hscan] at hrevalidate
  refine ⟨records, ?_⟩
  have hdone : orUndo (revalidate client ⟨h.linters.next⟩) (disposeLinter client ⟨h.linters.next⟩)
      (h.attached rules Host.freshCollection []) =
        (.ok (), h.attached rules (h.firstScan rules).2 records) :=
    orUndo_of_ok hrevalidate
  rw [attachLinter_of_valid client hrules, bind_of_ok hdone, pure_apply]

/-- Attaching a linter when a scan fails: the linter is released again. -/
theorem attachLinter_of_fault (client : Client σ) (hrules : Lint.checkRules rules = .ok ())
    {f : Fault} (hscan : (h.firstScan rules).1 = .error f) :
    ∃ records, attachLinter client rules none h =
      (.error f, (h.attached rules (h.firstScan rules).2 records).withoutLinter ⟨h.linters.next⟩
        ⟨h.collections.next⟩ (h.firstScan rules).2.clear.retire) := by
  obtain ⟨records, hrevalidate⟩ := revalidate_attached client h rules
  rw [hscan] at hrevalidate
  refine ⟨records, ?_⟩
  obtain ⟨halive, hunobserved⟩ := h.firstScan_frame rules
  have hundo := disposeLinter_of_feeds client
    (h.feeds_attached rules records halive hunobserved) rfl
  have hfail : orUndo (revalidate client ⟨h.linters.next⟩) (disposeLinter client ⟨h.linters.next⟩)
      (h.attached rules Host.freshCollection []) =
        (.error f, (h.attached rules (h.firstScan rules).2 records).withoutLinter
          ⟨h.linters.next⟩ ⟨h.collections.next⟩ (h.firstScan rules).2.clear.retire) :=
    orUndo_of_error hrevalidate hundo
  rw [attachLinter_of_valid client hrules, bind_of_error hfail]

/-- What a linter that was attached is. -/
theorem attached_of_attachLinter {client : Client σ} {l : LinterId} {h' : Host σ}
    (hattach : attachLinter client rules none h = (.ok l, h')) :
    l = ⟨h.linters.next⟩ ∧ ∃ c records, h' = h.attached rules c records := by
  cases hrules : Lint.checkRules rules with
  | error f =>
      unfold attachLinter at hattach
      rw [hrules] at hattach
      cases hattach
  | ok _ =>
      cases hscan : (h.firstScan rules).1 with
      | error f =>
          obtain ⟨records, hfault⟩ := attachLinter_of_fault client hrules hscan
          rw [hfault] at hattach
          cases hattach
      | ok _ =>
          obtain ⟨records, hdone⟩ := attachLinter_of_scans client hrules hscan
          rw [hdone] at hattach
          cases hattach
          exact ⟨rfl, _, records, rfl⟩

/-! ### Activating a service -/

/-- A service is admitted when all three conditions are met. -/
theorem admission_eq_ok_iff :
    h.admission rules = .ok () ↔
      Lint.checkRules rules = .ok () ∧ (h.firstScan rules).1 = .ok () ∧
        h.commands.contains validateCommand = false := by
  unfold Host.admission
  cases Lint.checkRules rules with
  | error f => simp [bind, Except.bind]
  | ok _ =>
      cases (h.firstScan rules).1 with
      | error f => simp [bind, Except.bind]
      | ok _ => cases h.commands.contains validateCommand <;> simp [bind, Except.bind]

/-- A service is refused for the first condition that is missed. -/
theorem admission_eq_error_iff {f : Fault} :
    h.admission rules = .error f ↔
      Lint.checkRules rules = .error f ∨
        Lint.checkRules rules = .ok () ∧ (h.firstScan rules).1 = .error f ∨
        Lint.checkRules rules = .ok () ∧ (h.firstScan rules).1 = .ok () ∧
          h.commands.contains validateCommand = true ∧ f = .commandTaken validateCommand := by
  unfold Host.admission
  cases Lint.checkRules rules with
  | error f => simp [bind, Except.bind]
  | ok _ =>
      cases (h.firstScan rules).1 with
      | error f => simp [bind, Except.bind]
      | ok _ =>
          cases h.commands.contains validateCommand <;> simp [bind, Except.bind, eq_comm]

theorem registerCommand_of_free {name : String} (hfree : h.commands.contains name = false)
    (handler : Handler) :
    registerCommand name handler h =
      (.ok ⟨some (.command name)⟩, { h with commands := h.commands.insert name handler }) := by
  unfold registerCommand
  rw [get_bind]
  simp only [hfree, Bool.false_eq_true, if_false]
  rfl

theorem registerCommand_of_taken {name : String} (htaken : h.commands.contains name = true)
    (handler : Handler) : registerCommand name handler h = (.error (.commandTaken name), h) := by
  unfold registerCommand
  rw [get_bind]
  simp only [htaken, if_true]
  rfl

/-- What a service acquires besides its linter. -/
theorem acquire_of_free (hfree : h.commands.contains validateCommand = false) (l : LinterId) :
    (do
      let _ ← registerCommand validateCommand (.validateActive ⟨h.services.next⟩)
      hold ⟨h.services.next⟩ .command
      let _ ← subscribe .configured (.service ⟨h.services.next⟩)
      hold ⟨h.services.next⟩ .configuration : HostM σ Unit)
        { h with services := h.services.add ⟨l, [.linter]⟩ } =
      (.ok (), { h with
        channels := h.channels.modify .configured (·.subscribe (.service ⟨h.services.next⟩))
        commands := h.commands.insert validateCommand (.validateActive ⟨h.services.next⟩)
        services := h.services.add ⟨l, Service.acquired⟩ }) := by
  have hheld : ((h.services.add ⟨l, [.linter]⟩).modify h.services.next
      fun s => { s with held := .command :: s.held }).modify h.services.next
        (fun s => { s with held := .configuration :: s.held }) =
      h.services.add ⟨l, Service.acquired⟩ := by
    rw [Registry.modify_add_next, Registry.modify_add_next]
    rfl
  have hregister := @registerCommand_of_free σ { h with services := h.services.add ⟨l, [.linter]⟩ }
    validateCommand hfree (.validateActive ⟨h.services.next⟩)
  refine (bind_of_ok hregister).trans ?_
  rw [← hheld]
  rfl

/-- Activating a service that is admitted wires it up. -/
theorem activate_of_admission (client : Client σ) (hadmitted : h.admission rules = .ok ()) :
    ∃ records, activate client rules h =
      (.ok ⟨h.services.next⟩, h.activated rules (h.firstScan rules).2 records) := by
  obtain ⟨hrules, hscan, hfree⟩ := admission_eq_ok_iff.1 hadmitted
  obtain ⟨records, hattach⟩ := attachLinter_of_scans client hrules hscan
  have hacquire := @acquire_of_free σ (h.attached rules (h.firstScan rules).2 records) hfree
    ⟨h.linters.next⟩
  refine ⟨records ++ [.activated], ?_⟩
  unfold activate
  rw [bind_of_ok hattach, get_bind, modify_bind]
  refine (bind_of_ok (orUndo_of_ok hacquire)).trans ?_
  rw [bind_of_ok (write_apply _ _), pure_apply]
  simp only [Host.activated, Host.attached, List.append_assoc]

/-- Activating a service that is refused ends with the fault, and restores the host. -/
theorem activate_of_refusal (client : Client σ) {f : Fault}
    (hrefused : h.admission rules = .error f) :
    ∃ h', activate client rules h = (.error f, h') ∧ (h.Unheard → h.Restored h') := by
  unfold activate
  rcases admission_eq_error_iff.1 hrefused with
    hrules | ⟨hrules, hscan⟩ | ⟨hrules, hscan, htaken, rfl⟩
  · -- the rule list is looked at before anything is acquired
    have hattach : attachLinter client rules none h = (.error f, h) := by
      unfold attachLinter
      rw [hrules, bind_of_error (ofExcept_apply _ h)]
    exact ⟨h, bind_of_error hattach, fun _ => Host.Restored.refl h⟩
  · -- a scan failed, and the linter was released
    obtain ⟨records, hattach⟩ := attachLinter_of_fault client hrules hscan
    exact ⟨_, bind_of_error hattach, fun hun => Host.restored_withoutLinter hun rules _ _ records⟩
  · -- the command is taken, and the service releases its linter
    obtain ⟨records, hattach⟩ := attachLinter_of_scans client hrules hscan
    obtain ⟨halive, hunobserved⟩ := h.firstScan_frame rules
    let g := h.attached rules (h.firstScan rules).2 records
    let g' : Host σ := { g with services := g.services.add ⟨⟨h.linters.next⟩, [.linter]⟩ }
    have htaken' : g'.commands.contains validateCommand = true := htaken
    have hregister := registerCommand_of_taken htaken' (.validateActive ⟨h.services.next⟩)
    have hfeeds := h.feeds_attached rules records halive hunobserved
    have hfeeds' : g'.Feeds ⟨h.linters.next⟩ ⟨rules, ⟨h.collections.next⟩, Linter.acquired⟩
        (h.firstScan rules).2 :=
      ⟨hfeeds.linter_eq, hfeeds.collection_eq, halive, hunobserved⟩
    have hservice : g'.services.get? h.services.next =
        some ⟨⟨h.linters.next⟩, [.linter]⟩ := Registry.get?_add_next ..
    have hundo := @releaseAll_of_linter σ g' ⟨h.services.next⟩ _ client _ _ hservice rfl hfeeds' rfl
    refine ⟨(g'.withoutLinter ⟨h.linters.next⟩ ⟨h.collections.next⟩
      (h.firstScan rules).2.clear.retire).setServiceHeld ⟨h.services.next⟩ [], ?_, fun hun => ?_⟩
    · rw [bind_of_ok hattach, get_bind, modify_bind]
      exact bind_of_error (orUndo_of_error (bind_of_error hregister) hundo)
    · have hrestored := Host.restored_withoutLinter hun rules (h.firstScan rules).2
        (h.firstScan rules).2.clear.retire records
      refine ⟨rfl, hrestored.channels, rfl, rfl, rfl, hrestored.collections, hrestored.linters, ?_⟩
      intro n hn
      change ((h.services.add _).modify h.services.next _).get? n = _
      rw [Registry.get?_modify_of_ne (by omega), Registry.get?_add_of_lt hn]

/-- Whether activating succeeds, and if not with which fault, is decided by the admission. -/
theorem activate_fst (client : Client σ) (h : Host σ) (rules : List Lint.Rule) :
    (activate client rules h).1 = (h.admission rules).map fun _ => ⟨h.services.next⟩ := by
  cases hadmission : h.admission rules with
  | error f =>
      obtain ⟨h', hactivate, -⟩ := activate_of_refusal client hadmission
      rw [hactivate]
      rfl
  | ok _ =>
      obtain ⟨records, hactivate⟩ := activate_of_admission client hadmission
      rw [hactivate]
      rfl

theorem activate_fst_eq_error (client : Client σ) {f : Fault} :
    (activate client rules h).1 = .error f ↔ h.admission rules = .error f := by
  rw [activate_fst]
  cases h.admission rules <;> simp [Except.map]

/-- What activating gives when it succeeds. -/
theorem activated_of_activate {client : Client σ} {s : ServiceId} {h₁ : Host σ}
    (hactivate : activate client rules h = (.ok s, h₁)) :
    h.admission rules = .ok () ∧ s = ⟨h.services.next⟩ ∧
      ∃ records, h₁ = h.activated rules (h.firstScan rules).2 records := by
  cases hadmission : h.admission rules with
  | error f =>
      obtain ⟨h', hrefused, -⟩ := activate_of_refusal client hadmission
      rw [hactivate] at hrefused
      cases hrefused
  | ok _ =>
      obtain ⟨records, hactivated⟩ := activate_of_admission client hadmission
      rw [hactivate, Prod.mk.injEq, Except.ok.injEq] at hactivated
      obtain ⟨rfl, rfl⟩ := hactivated
      exact ⟨rfl, rfl, records, rfl⟩

end HostM

end Edl
