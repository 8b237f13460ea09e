/-
What operations of a host may change.

Every operation of a host is made of allowed updates, whatever the clients do in between, as long
as they keep to the rules themselves.  This is said in the form that covers both kinds of
statements one wants: a relation between two hosts is respected by every operation if the two hosts
agree within a scope and the relation is kept by allowed updates (`Edl.Guarded`).  With the two
hosts equal, this is about properties that hold throughout; with two different hosts, it is about
what operations cannot tell apart.

Main definitions:

* `Edl.Guarded` — a relation that allowed updates keep;
* `Edl.Alike` — hosts that agree, are well-formed, and are in a guarded relation.

Main results:

* `Edl.Guarded.respects_fire`, `Edl.Guarded.respects_execute` and others — telling listeners and
  running commands respect the relation;
* `Edl.Guarded.respects_activate`, `Edl.Guarded.respects_deactivate` and others — so do the
  operations that lay hands on services, linters and collections in scope.
-/

import Edl.Proofs.Activation
import Edl.Proofs.WellFormed

set_option relaxedAutoImplicit false
set_option autoImplicit false

namespace Edl

/-! ### Guarded relations -/

/-- Allowed updates of well-formed hosts that agree keep the relation, and the scope `hands` is
closed: new records are in it, and so is what the records in it refer to. -/
structure Guarded {σ : Type} (hands ears : Scope) (Q : Host σ → Host σ → Prop) : Prop where
  le : hands.Le ears
  fresh : ∀ h g, h.WellFormed ears → Q h g → h.Fresh hands
  feeding : ∀ h g, h.WellFormed ears → Q h g → ∀ l x, hands.linter l →
    h.linters.get? l.number = some x → hands.collection x.collection
  employing : ∀ h g, h.WellFormed ears → Q h g → ∀ s x, hands.service s →
    h.services.get? s.number = some x → hands.linter x.linter
  update : ∀ h g (u : Update σ), h.Agrees ears g → h.WellFormed ears → Q h g →
    u.Allowed hands ears h → Q (u.apply h) (u.apply g)

/-- Hosts that agree and are well-formed, in a given relation. -/
structure Alike {σ : Type} (ears : Scope) (Q : Host σ → Host σ → Prop) (h g : Host σ) : Prop where
  agrees : h.Agrees ears g
  wellFormed : h.WellFormed ears
  related : Q h g

section

variable {σ : Type} {hands ears : Scope} {Q : Host σ → Host σ → Prop} {h g : Host σ}

/-- Hosts that are alike stay alike under an allowed update. -/
theorem Alike.update (hR : Alike ears Q h g) (hG : Guarded hands ears Q) (u : Update σ)
    (hu : u.Allowed hands ears h) : Alike ears Q (u.apply h) (u.apply g) where
  agrees := hR.agrees.update u
  wellFormed := hR.wellFormed.update hG.le hu
  related := hG.update h g u hR.agrees hR.wellFormed hR.related hu

/-- Replacing a collection by one with other entries is writing entries. -/
theorem Host.setCollection_eq_writeEntries {id : CollectionId} {c : Collection}
    (hc : h.collection? id = some c) (entries : Table Entry) :
    h.setCollection id { c with entries } = (Update.writeEntries id entries).apply h := by
  have hmodify : h.collections.modify id.number (fun _ => { c with entries }) =
      h.collections.modify id.number fun c => { c with entries } := Registry.modify_congr hc rfl
  simp only [setCollection, Update.apply, hmodify]

end

namespace Guarded

open HostM

variable {σ : Type} {hands ears : Scope} {Q : Host σ → Host σ → Prop}

/-! ### Messages and the log -/

theorem respects_write (hG : Guarded hands ears Q) (r : Log.Record) :
    Respects (Alike ears Q) (write r : HostM σ Unit) := by
  intro h g hR
  have hnote := hR.update hG (.note [] [r] id) trivial
  simp only [Update.apply, List.append_nil, id_eq] at hnote
  exact ⟨rfl, hnote⟩

theorem respects_message (hG : Guarded hands ears Q) (m : Message) :
    Respects (Alike ears Q)
      (modify fun h => { h with messages := h.messages ++ [m] } : HostM σ Unit) := by
  intro h g hR
  have hnote := hR.update hG (.note [m] [] id) trivial
  simp only [Update.apply, List.append_nil, id_eq] at hnote
  exact ⟨rfl, hnote⟩

theorem respects_showInformation (hG : Guarded hands ears Q) (text : String) :
    Respects (Alike ears Q) (showInformation text : HostM σ Unit) :=
  Respects.bind (hG.respects_write _) fun _ => hG.respects_message _

theorem respects_showWarning (hG : Guarded hands ears Q) (text : String) :
    Respects (Alike ears Q) (showWarning text : HostM σ Unit) :=
  Respects.bind (hG.respects_write _) fun _ => hG.respects_message _

/-! ### Collections -/

theorem respects_newCollection (hG : Guarded hands ears Q) (name : String) :
    Respects (Alike ears Q) (newCollection name : HostM σ CollectionId) := by
  intro h g hR
  have hadd := hR.update hG (.addCollection { name }) trivial
  exact ⟨congrArg (fun n => Except.ok (CollectionId.mk n)) hR.agrees.collections.next, hadd⟩

theorem respects_publish {client : Client σ} (hclient : client.Respects (Alike ears Q))
    {id : CollectionId} (hid : ears.collection id) (uri : String) :
    Respects (Alike ears Q) (publish client id uri) := by
  intro h g hR
  unfold publish
  refine RespectsAt.get_bind (by rw [hR.agrees.collection?_eq hid]) ?_
  cases h.collection? id with
  | none => exact Respects.pure () h g hR
  | some c =>
      exact Respects.forM (fun name _ => hclient.notify name (.diagnostics uri)) h g hR

/-- Writing entries and then telling the observers. -/
theorem respectsAt_setEntries (hG : Guarded hands ears Q) {h g : Host σ} (hR : Alike ears Q h g)
    {id : CollectionId} (hid : ears.collection id) {c : Collection}
    (hc : h.collection? id = some c) (entries : Table Entry) :
    RespectsAt (Alike ears Q)
      (modify fun h => h.setCollection id { c with entries } : HostM σ Unit) h g := by
  have hc' : g.collection? id = some c := (hR.agrees.collection?_eq hid).symm.trans hc
  refine RespectsAt.modify ?_
  rw [Host.setCollection_eq_writeEntries hc, Host.setCollection_eq_writeEntries hc']
  exact hR.update hG _ hid

theorem respects_writeEntry (hG : Guarded hands ears Q) {client : Client σ}
    (hclient : client.Respects (Alike ears Q)) {id : CollectionId} (hid : ears.collection id)
    (uri : String) (e : Entry) : Respects (Alike ears Q) (writeEntry client id uri e) := by
  intro h g hR
  unfold writeEntry
  refine RespectsAt.get_bind (by rw [hR.agrees.collection?_eq hid]) ?_
  cases hc : h.collection? id with
  | none => exact Respects.pure false h g hR
  | some c =>
      refine (RespectsAt.ofExcept hR _).bind fun written h' g' hrun hR' => ?_
      rw [ofExcept_apply, Prod.mk.injEq] at hrun
      obtain ⟨hwrite, rfl⟩ := hrun
      cases written with
      | none => exact Respects.pure false h g' hR'
      | some c' =>
          obtain rfl := Collection.eq_of_write hwrite
          refine (hG.respectsAt_setEntries hR' hid hc _).bind fun _ h'' g'' _ hR'' => ?_
          exact Respects.bind (respects_publish hclient hid uri) (fun _ => Respects.pure true)
            h'' g'' hR''

theorem respects_deleteEntry (hG : Guarded hands ears Q) {client : Client σ}
    (hclient : client.Respects (Alike ears Q)) {id : CollectionId} (hid : ears.collection id)
    (uri : String) : Respects (Alike ears Q) (deleteEntry client id uri) := by
  intro h g hR
  unfold deleteEntry
  refine RespectsAt.get_bind (by rw [hR.agrees.collection?_eq hid]) ?_
  cases hc : h.collection? id with
  | none => exact Respects.pure () h g hR
  | some c =>
      refine (RespectsAt.ofExcept hR _).bind fun deleted h' g' hrun hR' => ?_
      rw [ofExcept_apply, Prod.mk.injEq] at hrun
      obtain ⟨hdelete, rfl⟩ := hrun
      cases deleted with
      | none => exact Respects.pure () h g' hR'
      | some c' =>
          obtain rfl := Collection.eq_of_delete hdelete
          refine (hG.respectsAt_setEntries hR' hid hc _).bind fun _ h'' g'' _ hR'' => ?_
          exact respects_publish hclient hid uri h'' g'' hR''

theorem respects_clearEntries (hG : Guarded hands ears Q) {client : Client σ}
    (hclient : client.Respects (Alike ears Q)) {id : CollectionId} (hid : ears.collection id) :
    Respects (Alike ears Q) (clearEntries client id) := by
  intro h g hR
  unfold clearEntries
  refine RespectsAt.get_bind (by rw [hR.agrees.collection?_eq hid]) ?_
  cases hc : h.collection? id with
  | none => exact Respects.pure () h g hR
  | some c =>
      refine (hG.respectsAt_setEntries hR hid hc _).bind fun _ h' g' _ hR' => ?_
      exact Respects.forM (fun uri _ => respects_publish hclient hid uri) h' g' hR'

theorem respects_disposeCollection (hG : Guarded hands ears Q) {client : Client σ}
    (hclient : client.Respects (Alike ears Q)) {id : CollectionId} (hid : hands.collection id) :
    Respects (Alike ears Q) (disposeCollection client id) := by
  have hears := hG.le.collection id hid
  intro h g hR
  unfold disposeCollection
  refine RespectsAt.get_bind (by rw [hR.agrees.collection?_eq hears]) ?_
  cases h.collection? id with
  | none => exact Respects.pure () h g hR
  | some c =>
      dsimp only
      split
      · exact Respects.pure () h g hR
      · refine (hG.respects_clearEntries hclient hears h g hR).bind fun _ h' g' _ hR' => ?_
        exact RespectsAt.modify (hR'.update hG (.changeCollection id Collection.retire) hid)

/-! ### Scanning -/

theorem respects_validate (hG : Guarded hands ears Q) {client : Client σ}
    (hclient : client.Respects (Alike ears Q)) {l : LinterId} (hl : ears.linter l)
    (d : Document) : Respects (Alike ears Q) (validate client l d) := by
  intro h g hR
  unfold validate
  refine RespectsAt.get_bind (by rw [hR.agrees.linter_eq hl]) ?_
  cases hlinter : h.linters.get? l.number with
  | none => exact Respects.pure [] h g hR
  | some linter =>
      have hid : ears.collection linter.collection := (hR.wellFormed.feeding l linter hl hlinter).1
      refine RespectsAt.get_bind (by rw [hR.agrees.workspace]) ?_
      refine (RespectsAt.ofExcept hR _).bind fun settings h₁ g₁ _ hR₁ => ?_
      refine (RespectsAt.ofExcept hR₁ _).bind fun result h₂ g₂ _ hR₂ => ?_
      obtain ⟨found, record⟩ := result
      refine (hG.respects_write record h₂ g₂ hR₂).bind fun _ h₃ g₃ _ hR₃ => ?_
      refine (hG.respects_writeEntry hclient hid _ _ h₃ g₃ hR₃).bind fun _ h₄ g₄ _ hR₄ => ?_
      refine RespectsAt.get_bind (by rw [hR₄.agrees.collection?_eq hid]) ?_
      cases h₄.collection? linter.collection with
      | none => exact Respects.pure [] h₄ g₄ hR₄
      | some c => exact Respects.pure (c.get d.uri) h₄ g₄ hR₄

/-- Scanning a document, if it is of the language. -/
theorem respects_scanOne (hG : Guarded hands ears Q) {client : Client σ}
    (hclient : client.Respects (Alike ears Q)) {l : LinterId} (hl : ears.linter l)
    (d : Document) :
    Respects (Alike ears Q) (do if d.isEdl then let _ ← validate client l d : HostM σ Unit) := by
  by_cases hedl : d.isEdl = true
  · rw [if_pos hedl]
    exact Respects.bind (hG.respects_validate hclient hl d) fun _ => Respects.pure ()
  · rw [if_neg hedl]
    exact Respects.pure ()

theorem respects_revalidate (hG : Guarded hands ears Q) {client : Client σ}
    (hclient : client.Respects (Alike ears Q)) {l : LinterId} (hl : ears.linter l) :
    Respects (Alike ears Q) (revalidate client l) := by
  intro h g hR
  unfold revalidate
  refine RespectsAt.get_bind (by rw [hR.agrees.workspace]) ?_
  exact Respects.forM (fun d _ => hG.respects_scanOne hclient hl d) h g hR

theorem respects_linterNotified (hG : Guarded hands ears Q) {client : Client σ}
    (hclient : client.Respects (Alike ears Q)) {l : LinterId} (hl : ears.linter l)
    (event : Event) : Respects (Alike ears Q) (linterNotified client l event) := by
  cases event with
  | opened d => exact hG.respects_scanOne hclient hl d
  | changed d before =>
      simp only [linterNotified]
      by_cases hedl : d.isEdl = true
      · rw [if_pos hedl]
        exact Respects.bind (hG.respects_write _) fun _ =>
          Respects.bind (hG.respects_validate hclient hl d) fun _ => Respects.pure ()
      · rw [if_neg hedl]
        exact Respects.pure ()
  | closed d =>
      intro h g hR
      unfold linterNotified
      refine RespectsAt.get_bind (by rw [hR.agrees.linter_eq hl]) ?_
      cases hlinter : h.linters.get? l.number with
      | none => exact Respects.pure () h g hR
      | some linter =>
          have hid := (hR.wellFormed.feeding l linter hl hlinter).1
          exact hG.respects_deleteEntry hclient hid d.uri h g hR
  | configured keys => exact Respects.pure ()
  | diagnostics uri => exact Respects.pure ()

/-! ### Disposing linters -/

theorem respects_popLinter (hG : Guarded hands ears Q) {l : LinterId} (hl : hands.linter l) :
    Respects (Alike ears Q) (popLinter l : HostM σ (Option Linter.Holding)) := by
  intro h g hR
  unfold popLinter
  refine RespectsAt.get_bind (by rw [hR.agrees.linter_eq (hG.le.linter l hl)]) ?_
  rcases h.linters.get? l.number with _ | ⟨rules, collection, _ | ⟨thing, rest⟩⟩
  · exact Respects.pure none h g hR
  · exact Respects.pure none h g hR
  · have hpop := hR.update hG (.setLinterHeld l rest) hl
    exact (RespectsAt.modify hpop).bind fun _ h' g' _ hR' => ⟨rfl, hR'⟩

theorem respects_releaseLinter (hG : Guarded hands ears Q) {client : Client σ}
    (hclient : client.Respects (Alike ears Q)) {l : LinterId} (hl : hands.linter l)
    (thing : Linter.Holding) : Respects (Alike ears Q) (releaseLinter client l thing) := by
  intro h g hR
  cases thing with
  | channel c => exact RespectsAt.modify (hR.update hG (.unsubscribe c (.linter l)) hl)
  | collection =>
      unfold releaseLinter
      refine RespectsAt.get_bind (by rw [hR.agrees.linter_eq (hG.le.linter l hl)]) ?_
      cases hlinter : h.linters.get? l.number with
      | none => exact Respects.pure () h g hR
      | some linter =>
          have hid := hG.feeding h g hR.wellFormed hR.related l linter hl hlinter
          exact hG.respects_disposeCollection hclient hid h g hR

theorem respects_disposeLinter (hG : Guarded hands ears Q) {client : Client σ}
    (hclient : client.Respects (Alike ears Q)) {l : LinterId} (hl : hands.linter l) :
    Respects (Alike ears Q) (disposeLinter client l) := by
  intro h g hR
  unfold disposeLinter
  refine RespectsAt.get_bind (by rw [hR.agrees.linter_eq (hG.le.linter l hl)]) ?_
  cases h.linters.get? l.number with
  | none => exact Respects.pure () h g hR
  | some linter =>
      have hdrain : Respects (Alike ears Q)
          (drain (popLinter l) (releaseLinter client l) linter.held.length none) :=
        Respects.drain (hG.respects_popLinter hl)
          (fun thing _ _ h' g' _ _ hR' => hG.respects_releaseLinter hclient hl thing h' g' hR') _ _
      exact Respects.bind hdrain (fun fault => Respects.throwIfSome fault) h g hR

/-! ### Attaching linters -/

/-- A listener in scope may subscribe. -/
theorem respectsAt_subscribe (hG : Guarded hands ears Q) {h g : Host σ} (hR : Alike ears Q h g)
    (channel : Channel) (x : Listener) (hx : hands.listener x) (hthere : h.HasListener x) :
    RespectsAt (Alike ears Q) (subscribe channel x) h g :=
  ⟨rfl, hR.update hG (.subscribe channel x) ⟨hx, hthere⟩⟩

/-- Attaching a linter once its collection is known. -/
theorem respectsAt_attach (hG : Guarded hands ears Q) {client : Client σ}
    (hclient : client.Respects (Alike ears Q)) {h g : Host σ} (hR : Alike ears Q h g)
    (rules : List Lint.Rule) {collection : CollectionId} (hid : hands.collection collection)
    (hthere : collection.number < h.collections.next) :
    RespectsAt (Alike ears Q) (do
      let id : LinterId := ⟨(← get).linters.next⟩
      let held := Linter.acquired
      modify fun h => { h with linters := h.linters.add { rules, collection, held } }
      let _ ← subscribe .opened (.linter id)
      let _ ← subscribe .changed (.linter id)
      let _ ← subscribe .closed (.linter id)
      orUndo (revalidate client id) (disposeLinter client id)
      return id) h g := by
  refine RespectsAt.get_bind (by rw [hR.agrees.linters.next]) ?_
  have hl : hands.linter ⟨h.linters.next⟩ :=
    (hG.fresh h g hR.wellFormed hR.related).linters _ (Nat.le_refl _)
  have hlt : h.linters.next < (h.linters.add ⟨rules, collection, Linter.acquired⟩).next := by
    rw [Registry.next_add]
    omega
  have hadd := hR.update hG (.addLinter ⟨rules, collection, Linter.acquired⟩) ⟨hid, hthere⟩
  refine (RespectsAt.modify hadd).bind fun _ h₁ g₁ hrun₁ hR₁ => ?_
  obtain rfl := congrArg Prod.snd hrun₁
  refine (hG.respectsAt_subscribe hR₁ .opened (.linter _) hl hlt).bind fun _ h₂ g₂ hrun₂ hR₂ => ?_
  obtain rfl := congrArg Prod.snd hrun₂
  refine (hG.respectsAt_subscribe hR₂ .changed (.linter _) hl hlt).bind fun _ h₃ g₃ hrun₃ hR₃ => ?_
  obtain rfl := congrArg Prod.snd hrun₃
  refine (hG.respectsAt_subscribe hR₃ .closed (.linter _) hl hlt).bind fun _ h₄ g₄ _ hR₄ => ?_
  have hscan := hG.respects_revalidate hclient (hG.le.linter _ hl) h₄ g₄ hR₄
  refine (hscan.orUndo (hG.respects_disposeLinter hclient hl)).bind fun _ h₅ g₅ _ hR₅ => ?_
  exact Respects.pure _ h₅ g₅ hR₅

/-- Attaching a linter to a collection that is in scope and there, or to a new one. -/
theorem respectsAt_attachLinter (hG : Guarded hands ears Q) {client : Client σ}
    (hclient : client.Respects (Alike ears Q)) {h g : Host σ} (hR : Alike ears Q h g)
    (rules : List Lint.Rule) (collection : Option CollectionId)
    (hcollection : ∀ c, collection = some c →
      hands.collection c ∧ c.number < h.collections.next) :
    RespectsAt (Alike ears Q) (attachLinter client rules collection) h g := by
  unfold attachLinter
  refine (RespectsAt.ofExcept hR _).bind fun _ h₁ g₁ hrun₁ hR₁ => ?_
  rw [ofExcept_apply, Prod.mk.injEq] at hrun₁
  obtain ⟨-, rfl⟩ := hrun₁
  cases collection with
  | some c =>
      obtain ⟨hid, hthere⟩ := hcollection c rfl
      have hgiven := Respects.pure (R := Alike ears Q) c h g₁ hR₁
      refine hgiven.bind fun c' h₂ g₂ hrun₂ hR₂ => ?_
      obtain ⟨hc, rfl⟩ := Prod.mk.inj hrun₂
      obtain rfl := Except.ok.inj hc
      exact hG.respectsAt_attach hclient hR₂ rules hid hthere
  | none =>
      have hid := (hG.fresh h g₁ hR₁.wellFormed hR₁.related).collections _ (Nat.le_refl _)
      have hnew := hG.respects_newCollection edlLanguage h g₁ hR₁
      refine hnew.bind fun c h₂ g₂ hrun₂ hR₂ => ?_
      obtain ⟨hc, rfl⟩ := Prod.mk.inj hrun₂
      obtain rfl := Except.ok.inj hc
      refine hG.respectsAt_attach hclient hR₂ rules hid ?_
      change h.collections.next < (h.collections.add _).next
      rw [Registry.next_add]
      omega

/-! ### Services -/

theorem respects_validateActive (hG : Guarded hands ears Q) {client : Client σ}
    (hclient : client.Respects (Alike ears Q)) {s : ServiceId} (hs : ears.service s) :
    Respects (Alike ears Q) (validateActive client s) := by
  intro h g hR
  unfold validateActive
  refine RespectsAt.get_bind (by rw [hR.agrees.service_eq hs]) ?_
  cases hservice : h.services.get? s.number with
  | none => exact Respects.pure none h g hR
  | some service =>
      have hl : ears.linter service.linter := (hR.wellFormed.employing s service hs hservice).1
      have hwarn : Respects (Alike ears Q) (do
          showWarning noEdlDocument
          return none : HostM σ (Option (List Diagnostic))) :=
        Respects.bind (hG.respects_showWarning _) fun _ => Respects.pure none
      refine RespectsAt.get_bind (by rw [hR.agrees.workspace]) ?_
      cases h.workspace.activeDocument with
      | none => exact hwarn h g hR
      | some d =>
          dsimp only
          by_cases hedl : d.isEdl = true
          · rw [if_pos hedl]
            exact Respects.bind (hG.respects_validate hclient hl d) (fun found =>
              Respects.bind (hG.respects_showInformation _) fun _ => Respects.pure (some found))
              h g hR
          · rw [if_neg hedl]
            exact hwarn h g hR

theorem respects_serviceNotified (hG : Guarded hands ears Q) {client : Client σ}
    (hclient : client.Respects (Alike ears Q)) {s : ServiceId} (hs : ears.service s)
    (event : Event) : Respects (Alike ears Q) (serviceNotified client s event) := by
  cases event with
  | configured keys =>
      intro h g hR
      unfold serviceNotified
      refine RespectsAt.get_bind (by rw [hR.agrees.service_eq hs]) ?_
      cases hservice : h.services.get? s.number with
      | none => exact Respects.pure () h g hR
      | some service =>
          have hl := (hR.wellFormed.employing s service hs hservice).1
          dsimp only
          split
          · exact hG.respects_revalidate hclient hl h g hR
          · exact Respects.pure () h g hR
  | opened d => exact Respects.pure ()
  | changed d before => exact Respects.pure ()
  | closed d => exact Respects.pure ()
  | diagnostics uri => exact Respects.pure ()

/-! ### Disposing services -/

theorem respects_popService (hG : Guarded hands ears Q) {s : ServiceId} (hs : hands.service s) :
    Respects (Alike ears Q) (popService s : HostM σ (Option Service.Holding)) := by
  have hears := hG.le.service s hs
  intro h g hR
  unfold popService
  refine RespectsAt.get_bind (by rw [hR.agrees.service_eq hears]) ?_
  rcases hservice : h.services.get? s.number with _ | ⟨linter, _ | ⟨thing, rest⟩⟩
  · exact Respects.pure none h g hR
  · exact Respects.pure none h g hR
  · have hnodup := hR.wellFormed.once s _ hears hservice
    have hholding := hR.wellFormed.holding s _ hears hservice
    have hpop := hR.update hG (.setServiceHeld s rest)
      ⟨hs, (List.nodup_cons.1 hnodup).2, fun hmem => hholding (List.mem_cons_of_mem _ hmem)⟩
    exact (RespectsAt.modify hpop).bind fun _ h' g' _ hR' => ⟨rfl, hR'⟩

/-- Once a service has taken the command from what it holds, nobody holds it. -/
theorem allowed_unregister (hG : Guarded hands ears Q) {s : ServiceId} (hs : hands.service s)
    {h h' : Host σ} (hwf : h.WellFormed ears) (hpop : popService s h = (.ok (some .command), h')) :
    (Update.unregister validateCommand).Allowed hands ears h' := by
  have hears := hG.le.service s hs
  obtain ⟨linter, rest, hservice, rfl⟩ := popService_eq_some hpop
  have hfind := hwf.holding s _ hears hservice (List.mem_cons_self ..)
  refine ⟨fun y hy => ?_, fun s' x hs' hx hheld => ?_⟩
  · have hsame : some y = some (.validateActive s) := hy.symm.trans hfind
    obtain rfl := Option.some.inj hsame
    exact hs
  · -- what is held under another number, or is left here, would be a second command
    obtain ⟨x', hx', rfl | ⟨hid, rfl⟩⟩ := Registry.get?_modify_cases hx
    · have hfind' := hwf.holding s' _ hs' hx' hheld
      rw [hfind] at hfind'
      obtain rfl : s = s' := by injection Option.some.inj hfind'
      rw [Host.get?_setServiceHeld hservice] at hx
      obtain rfl := Option.some.inj hx
      exact absurd hheld (List.nodup_cons.1 (hwf.once s _ hears hservice)).1
    · exact absurd hheld (List.nodup_cons.1 (hwf.once s _ hears hservice)).1

theorem respects_releaseAll (hG : Guarded hands ears Q) {client : Client σ}
    (hclient : client.Respects (Alike ears Q)) {s : ServiceId} (hs : hands.service s) :
    Respects (Alike ears Q) (releaseAll client s) := by
  have hears := hG.le.service s hs
  have hrelease : ∀ thing h g h' g', Alike ears Q h g → popService s h = (.ok (some thing), h') →
      Alike ears Q h' g' → RespectsAt (Alike ears Q) (releaseService client s thing) h' g' := by
    intro thing h g h' g' hR hpop hR'
    cases thing with
    | configuration =>
        exact RespectsAt.modify (hR'.update hG (.unsubscribe .configured (.service s)) hs)
    | command =>
        have hallowed := hG.allowed_unregister hs hR.wellFormed hpop
        exact RespectsAt.modify (hR'.update hG (.unregister validateCommand) hallowed)
    | linter =>
        unfold releaseService
        refine RespectsAt.get_bind (by rw [hR'.agrees.service_eq hears]) ?_
        cases hservice : h'.services.get? s.number with
        | none => exact Respects.pure () h' g' hR'
        | some service =>
            have hl := hG.employing h' g' hR'.wellFormed hR'.related s service hs hservice
            exact hG.respects_disposeLinter hclient hl h' g' hR'
  intro h g hR
  unfold releaseAll
  refine RespectsAt.get_bind (by rw [hR.agrees.service_eq hears]) ?_
  cases h.services.get? s.number with
  | none => exact Respects.pure () h g hR
  | some service =>
      have hdrain := Respects.drain (hG.respects_popService hs) hrelease service.held.length none
      exact Respects.bind hdrain (fun fault => Respects.throwIfSome fault) h g hR

theorem respects_deactivate (hG : Guarded hands ears Q) {client : Client σ}
    (hclient : client.Respects (Alike ears Q)) {s : ServiceId} (hs : hands.service s) :
    Respects (Alike ears Q) (deactivate client s) :=
  Respects.bind (hG.respects_releaseAll hclient hs) fun _ => hG.respects_write _

/-! ### Activating services -/

theorem respectsAt_registerCommand (hG : Guarded hands ears Q) {h g : Host σ}
    (hR : Alike ears Q h g) (name : String) (y : Handler) (hy : hands.handler y)
    (hthere : h.HasHandler y) : RespectsAt (Alike ears Q) (registerCommand name y) h g := by
  unfold RespectsAt
  cases hname : h.commands.contains name with
  | true =>
      have hname' : g.commands.contains name = true := hR.agrees.commands ▸ hname
      rw [registerCommand_of_taken hname, registerCommand_of_taken hname']
      exact ⟨rfl, hR⟩
  | false =>
      have hname' : g.commands.contains name = false := hR.agrees.commands ▸ hname
      rw [registerCommand_of_free hname, registerCommand_of_free hname']
      have hfree := Table.contains_eq_false_iff.1 hname
      exact ⟨rfl, hR.update hG (.register name y) ⟨hy, hthere, hfree⟩⟩

/-- A service may note that it acquired something, the command once it is registered. -/
theorem respectsAt_hold (hG : Guarded hands ears Q) {h g : Host σ} (hR : Alike ears Q h g)
    {s : ServiceId} (hs : hands.service s) {l : LinterId} {held : List Service.Holding}
    (hservice : h.services.get? s.number = some ⟨l, held⟩) (thing : Service.Holding)
    (hnodup : (thing :: held).Nodup)
    (hcommand : .command ∈ thing :: held →
      h.commands.find? validateCommand = some (.validateActive s)) :
    RespectsAt (Alike ears Q) (hold s thing) h g := by
  have hheld : ∀ f : Host σ, f.services.get? s.number = some ⟨l, held⟩ →
      f.setServiceHeld s (thing :: held) =
        { f with services := f.services.modify s.number fun s =>
            { s with held := thing :: s.held } } := by
    intro f hf
    have hmodify : (f.services.modify s.number fun s => { s with held := thing :: held }) =
        f.services.modify s.number fun s => { s with held := thing :: s.held } :=
      Registry.modify_congr hf rfl
    rw [Host.setServiceHeld, hmodify]
  have hservice' := (hR.agrees.service_eq (hG.le.service s hs)).symm.trans hservice
  have hset := hR.update hG (.setServiceHeld s (thing :: held)) ⟨hs, hnodup, hcommand⟩
  rw [Update.apply, Update.apply, hheld h hservice, hheld g hservice'] at hset
  exact RespectsAt.modify hset

/-- What a service acquires besides its linter. -/
theorem respectsAt_acquire (hG : Guarded hands ears Q) {h g : Host σ} (hR : Alike ears Q h g)
    {s : ServiceId} (hs : hands.service s) {l : LinterId}
    (hservice : h.services.get? s.number = some ⟨l, [.linter]⟩) :
    RespectsAt (Alike ears Q) (do
      let _ ← registerCommand validateCommand (.validateActive s)
      hold s .command
      let _ ← subscribe .configured (.service s)
      hold s .configuration : HostM σ Unit) h g := by
  have hlt : s.number < h.services.next := Registry.lt_next_of_get? hservice
  have hregister := hG.respectsAt_registerCommand hR validateCommand (.validateActive s) hs hlt
  refine hregister.bind fun _ h₁ g₁ hrun₁ hR₁ => ?_
  obtain ⟨hfind, hservice₁⟩ :
      h₁.commands.find? validateCommand = some (.validateActive s) ∧
        h₁.services = h.services := by
    cases hname : h.commands.contains validateCommand with
    | true =>
        rw [registerCommand_of_taken hname] at hrun₁
        cases hrun₁
    | false =>
        rw [registerCommand_of_free hname] at hrun₁
        obtain rfl := congrArg Prod.snd hrun₁
        exact ⟨Table.find?_insert_self .., rfl⟩
  rw [← hservice₁] at hservice hlt
  refine (hG.respectsAt_hold hR₁ hs hservice .command (by decide) fun _ => hfind).bind
    fun _ h₂ g₂ hrun₂ hR₂ => ?_
  obtain rfl := congrArg Prod.snd hrun₂
  have hservice₂ := Registry.get?_modify_self h₁.services s.number fun x : Service =>
    { x with held := .command :: x.held }
  rw [hservice, Option.map_some] at hservice₂
  have hlt₂ := Registry.lt_next_of_get? hservice₂
  refine (hG.respectsAt_subscribe hR₂ .configured (.service s) hs hlt₂).bind
    fun _ h₃ g₃ hrun₃ hR₃ => ?_
  obtain rfl := congrArg Prod.snd hrun₃
  exact hG.respectsAt_hold hR₃ hs hservice₂ .configuration (by simp) fun _ => hfind

theorem respects_activate (hG : Guarded hands ears Q) {client : Client σ}
    (hclient : client.Respects (Alike ears Q)) (rules : List Lint.Rule) :
    Respects (Alike ears Q) (activate client rules) := by
  intro h g hR
  have hl : hands.linter ⟨h.linters.next⟩ :=
    (hG.fresh h g hR.wellFormed hR.related).linters _ (Nat.le_refl _)
  have hattach := hG.respectsAt_attachLinter hclient hR rules none (by simp)
  refine hattach.bind fun l h₁ g₁ hrun₁ hR₁ => ?_
  obtain ⟨rfl, c, records, rfl⟩ := attached_of_attachLinter hrun₁
  refine RespectsAt.get_bind (by rw [hR₁.agrees.services.next]) ?_
  have hs : hands.service ⟨h.services.next⟩ :=
    (hG.fresh h g hR.wellFormed hR.related).services _ (Nat.le_refl _)
  have hlt : h.linters.next < (h.attached rules c records).linters.next := by
    simp [Host.attached]
  have hadd := hR₁.update hG (.addService ⟨⟨h.linters.next⟩, [.linter]⟩) ⟨hl, hlt, rfl⟩
  refine (RespectsAt.modify hadd).bind fun _ h₂ g₂ hrun₂ hR₂ => ?_
  obtain rfl := congrArg Prod.snd hrun₂
  have hservice := Registry.get?_add_next h.services ⟨⟨h.linters.next⟩, [.linter]⟩
  have hacquire := hG.respectsAt_acquire hR₂ (s := ⟨h.services.next⟩) hs hservice
  refine (hacquire.orUndo (hG.respects_releaseAll hclient hs)).bind fun _ h₃ g₃ _ hR₃ => ?_
  exact Respects.bind (hG.respects_write _) (fun _ => Respects.pure _) h₃ g₃ hR₃

/-! ### Requests -/

theorem respects_notify (hG : Guarded hands ears Q) {client : Client σ}
    (hclient : client.Respects (Alike ears Q)) (event : Event) {x : Listener}
    (hx : ears.listener x) : Respects (Alike ears Q) (notify client event x) := by
  cases x with
  | linter l => exact hG.respects_linterNotified hclient hx event
  | service s => exact hG.respects_serviceNotified hclient hx event
  | client name => exact hclient.notify name event

theorem respects_fire (hG : Guarded hands ears Q) {client : Client σ}
    (hclient : client.Respects (Alike ears Q)) (channel : Channel) (event : Event) :
    Respects (Alike ears Q) (fire client channel event) := by
  intro h g hR
  unfold fire
  refine RespectsAt.get_bind (by rw [hR.agrees.channels]) ?_
  refine Respects.forM (fun x hx => ?_) h g hR
  exact hG.respects_notify hclient event (hR.wellFormed.listening channel x hx).1

/-- What a request makes of the workspace is a step of the workspace. -/
theorem respectsAt_settle (hG : Guarded hands ears Q) {α : Type} {h g : Host σ}
    (hR : Alike ears Q h g) (result : Except Fault (Workspace × α)) (r : Request)
    (hstep : ∀ w a, result = .ok (w, a) → h.workspace.step r = .ok w) :
    RespectsAt (Alike ears Q) (settle result) h g := by
  unfold settle
  refine (RespectsAt.ofExcept hR _).bind fun found h₁ g₁ hrun₁ hR₁ => ?_
  rw [ofExcept_apply, Prod.mk.injEq] at hrun₁
  obtain ⟨hresult, rfl⟩ := hrun₁
  obtain ⟨w, a⟩ := found
  have hworkspace := hR₁.update hG (.workspace w) ⟨r, hstep w a hresult⟩
  exact (RespectsAt.modify hworkspace).bind fun _ h₂ g₂ _ hR₂ => Respects.pure a h₂ g₂ hR₂

theorem respects_openDocument (hG : Guarded hands ears Q) {client : Client σ}
    (hclient : client.Respects (Alike ears Q)) (uri text language : String) :
    Respects (Alike ears Q) (openDocument client uri text language) := by
  intro h g hR
  refine RespectsAt.get_bind (by rw [hR.agrees.workspace]) ?_
  have hsettle := hG.respectsAt_settle hR (h.workspace.openDocument uri text language)
    (.openDocument uri text language) fun w d hopen => by simp [Workspace.step, hopen, Except.map]
  refine hsettle.bind fun d h₁ g₁ _ hR₁ => ?_
  exact Respects.bind (hG.respects_fire hclient _ _) (fun _ => Respects.pure d) h₁ g₁ hR₁

theorem respects_changeDocument (hG : Guarded hands ears Q) {client : Client σ}
    (hclient : client.Respects (Alike ears Q)) (uri text : String) :
    Respects (Alike ears Q) (changeDocument client uri text) := by
  intro h g hR
  refine RespectsAt.get_bind (by rw [hR.agrees.workspace]) ?_
  have hsettle := hG.respectsAt_settle hR (h.workspace.changeDocument uri text)
    (.changeDocument uri text) fun w d hchange => by simp [Workspace.step, hchange, Except.map]
  refine hsettle.bind fun d h₁ g₁ _ hR₁ => ?_
  exact Respects.bind (hG.respects_fire hclient _ _) (fun _ => Respects.pure d.2) h₁ g₁ hR₁

theorem respects_closeDocument (hG : Guarded hands ears Q) {client : Client σ}
    (hclient : client.Respects (Alike ears Q)) (uri : String) :
    Respects (Alike ears Q) (closeDocument client uri) := by
  intro h g hR
  refine RespectsAt.get_bind (by rw [hR.agrees.workspace]) ?_
  have hsettle := hG.respectsAt_settle hR (h.workspace.closeDocument uri)
    (.closeDocument uri) fun w d hclose => by simp [Workspace.step, hclose, Except.map]
  exact hsettle.bind fun d h₁ g₁ _ hR₁ => hG.respects_fire hclient _ _ h₁ g₁ hR₁

theorem respects_setActive (hG : Guarded hands ears Q) (uri : Option String) :
    Respects (Alike ears Q) (setActive uri : HostM σ Unit) := by
  intro h g hR
  refine RespectsAt.get_bind (by rw [hR.agrees.workspace]) ?_
  refine hG.respectsAt_settle hR _ (.setActive uri) fun w _ hset => ?_
  cases hactive : h.workspace.setActive uri with
  | error f =>
      rw [hactive] at hset
      cases hset
  | ok w' =>
      rw [hactive] at hset
      cases hset
      exact hactive

theorem respects_updateConfiguration (hG : Guarded hands ears Q) {client : Client σ}
    (hclient : client.Respects (Alike ears Q)) (entries : List (String × Config.Value)) :
    Respects (Alike ears Q) (updateConfiguration client entries) := by
  intro h g hR
  refine RespectsAt.get_bind (by rw [hR.agrees.workspace]) ?_
  have hsettle := hG.respectsAt_settle hR (h.workspace.updateConfiguration entries)
    (.updateConfiguration entries) fun w _ hupdate => by
      simp [Workspace.step, hupdate, Except.map]
  refine hsettle.bind fun keys h₁ g₁ _ hR₁ => ?_
  split
  · exact Respects.pure () h₁ g₁ hR₁
  · exact hG.respects_fire hclient _ _ h₁ g₁ hR₁

theorem respects_execute (hG : Guarded hands ears Q) {client : Client σ}
    (hclient : client.Respects (Alike ears Q)) (name : String) :
    Respects (Alike ears Q) (execute client name) := by
  intro h g hR
  unfold execute
  refine RespectsAt.get_bind (by rw [hR.agrees.commands]) ?_
  cases hfind : h.commands.find? name with
  | none => exact Respects.throw (.commandUnknown name) h g hR
  | some y =>
      have hy := (hR.wellFormed.handling name y hfind).1
      dsimp only
      unfold Handler.run
      cases y with
      | validateActive s =>
          refine (hG.respects_validateActive hclient hy h g hR).bind fun found h₁ g₁ _ hR₁ => ?_
          cases found with
          | none => exact Respects.pure (Answer.value .null) h₁ g₁ hR₁
          | some ds => exact Respects.pure (Answer.diagnostics ds) h₁ g₁ hR₁
      | client number =>
          have hinvoke := hclient.invoke number
          exact Respects.bind hinvoke (fun v => Respects.pure (Answer.value v)) h g hR

end Guarded

end Edl
