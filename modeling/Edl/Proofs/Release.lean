/-
What a linter and a service give back.

Whatever was acquired is released one thing after another, last acquired first, and each is taken
off the list of held things before it is released.  For a collection with harmless observers no
release can fail, so the release of a linter, and of a service, has one outcome up to what these
observers leave behind.  Without observers this is an equation between hosts.

Main definitions:

* `Edl.Linter.acquired`, `Edl.Service.acquired` — what is held once everything was acquired;
* `Edl.Host.withoutLinter`, `Edl.Host.withoutService` — the host after the release.

Main results:

* `Edl.HostM.disposeLinter_of_watched`, `Edl.HostM.disposeLinter_of_feeds` — releasing a linter;
* `Edl.HostM.releaseAll_of_linter` — releasing a service that only has its linter;
* `Edl.HostM.deactivate_of_watched` — disposing a service;
* `Edl.HostM.deactivate_of_released` — disposing a service that holds nothing.
-/

import Edl.Proofs.Feeding

set_option relaxedAutoImplicit false
set_option autoImplicit false

namespace Edl

/-- What a linter holds, last acquired first. -/
def Linter.acquired : List Linter.Holding :=
  [.channel .closed, .channel .changed, .channel .opened, .collection]

/-- What a service holds, last acquired first. -/
def Service.acquired : List Service.Holding :=
  [.configuration, .command, .linter]

/-- Who listens for a service on a channel: its linter, or the service itself for the
configuration. -/
def ServiceId.listener (s : ServiceId) (l : LinterId) : Channel → Listener
  | .opened => .linter l
  | .changed => .linter l
  | .closed => .linter l
  | .configured => .service s

namespace Channels

/-- The channels without a linter, which listens on three of them. -/
def withoutLinter (cs : Channels) (id : LinterId) : Channels :=
  { cs with
    opened := cs.opened.release (.linter id)
    changed := cs.changed.release (.linter id)
    closed := cs.closed.release (.linter id) }

end Channels

namespace Host

variable {σ : Type}

/-- The host with what a linter holds replaced. -/
def setLinterHeld (h : Host σ) (id : LinterId) (held : List Linter.Holding) : Host σ :=
  { h with linters := h.linters.modify id.number fun l => { l with held } }

/-- The host with what a service holds replaced. -/
def setServiceHeld (h : Host σ) (id : ServiceId) (held : List Service.Holding) : Host σ :=
  { h with services := h.services.modify id.number fun s => { s with held } }

/-- The host after a linter was released, with what is left of its collection. -/
def withoutLinter (h : Host σ) (id : LinterId) (collection : CollectionId) (c : Collection) :
    Host σ :=
  { (h.setLinterHeld id []).withStore collection c [] with
    channels := h.channels.withoutLinter id }

/-- The host after a service was released, with what is left of its collection. -/
def withoutService (h : Host σ) (service : ServiceId) (linter : LinterId)
    (collection : CollectionId) (c : Collection) : Host σ :=
  { (h.withoutLinter linter collection c).setServiceHeld service [] with
    channels := (h.channels.modify .configured (·.release (.service service))).withoutLinter linter
    commands := h.commands.erase validateCommand }

/-- The host with a record added to its log. -/
def logged (h : Host σ) (r : Log.Record) : Host σ :=
  { h with log := h.log ++ [r] }

variable {h : Host σ}

theorem get?_setLinterHeld {id : LinterId} {linter : Linter}
    (hl : h.linters.get? id.number = some linter) (held : List Linter.Holding) :
    (h.setLinterHeld id held).linters.get? id.number = some { linter with held } := by
  change (h.linters.modify id.number _).get? id.number = _
  rw [Registry.get?_modify_self, hl]
  rfl

theorem get?_setServiceHeld {id : ServiceId} {service : Service}
    (hs : h.services.get? id.number = some service) (held : List Service.Holding) :
    (h.setServiceHeld id held).services.get? id.number = some { service with held } := by
  change (h.services.modify id.number _).get? id.number = _
  rw [Registry.get?_modify_self, hs]
  rfl

theorem setLinterHeld_self {id : LinterId} {linter : Linter}
    (hl : h.linters.get? id.number = some linter) : h.setLinterHeld id linter.held = h := by
  unfold setLinterHeld
  rw [Registry.modify_of_get? hl rfl]

theorem setLinterHeld_setLinterHeld (h : Host σ) (id : LinterId)
    (held held' : List Linter.Holding) :
    (h.setLinterHeld id held).setLinterHeld id held' = h.setLinterHeld id held' := by
  unfold setLinterHeld
  rw [Registry.modify_modify]
  rfl

theorem setServiceHeld_setServiceHeld (h : Host σ) (id : ServiceId)
    (held held' : List Service.Holding) :
    (h.setServiceHeld id held).setServiceHeld id held' = h.setServiceHeld id held' := by
  unfold setServiceHeld
  rw [Registry.modify_modify]
  rfl

end Host

namespace HostM

variable {σ : Type} {h : Host σ} {bound : Nat} {last : Option Fault}

/-! ### Releasing a linter -/

section Linter

variable {id : LinterId} {linter : Linter} {rest : List Linter.Holding}

theorem popLinter_of_held (hl : h.linters.get? id.number = some linter) {thing : Linter.Holding}
    (hheld : linter.held = thing :: rest) :
    popLinter id h = (.ok (some thing), h.setLinterHeld id rest) := by
  obtain ⟨rules, collection, held⟩ := linter
  obtain rfl : held = thing :: rest := hheld
  unfold popLinter
  rw [get_bind, hl]
  rfl

/-- The subscriptions come first: the linter is taken off one channel after another. -/
theorem drain_linter_channels (client : Client σ) (channels : List Channel)
    (hl : h.linters.get? id.number = some linter)
    (hheld : linter.held = channels.map .channel ++ rest) :
    drain (popLinter id) (releaseLinter client id) (channels.length + bound) last h =
      drain (popLinter id) (releaseLinter client id) bound last
        { h.setLinterHeld id rest with
          channels := channels.foldl (fun cs c => cs.modify c (·.release (.linter id)))
            h.channels } := by
  induction channels generalizing h linter with
  | nil =>
      obtain rfl : linter.held = rest := hheld
      rw [Host.setLinterHeld_self hl]
      simp
  | cons channel channels ih =>
      have hpop := popLinter_of_held hl hheld
      have hl' : ((h.setLinterHeld id (channels.map Linter.Holding.channel ++ rest)).release
          (.listener channel (.linter id))).linters.get? id.number =
            some { linter with held := channels.map Linter.Holding.channel ++ rest } :=
        Host.get?_setLinterHeld hl _
      have hbound : (channel :: channels).length + bound = channels.length + bound + 1 := by
        simp only [List.length_cons]
        omega
      rw [hbound, drain_succ_of_release hpop rfl]
      refine (ih hl' rfl).trans ?_
      -- of the two lists of held things that were written the last one counts
      have hheld' := Host.setLinterHeld_setLinterHeld h id
        (channels.map Linter.Holding.channel ++ rest) rest
      rw [← hheld']
      rfl

/-- The collection comes last. -/
theorem drain_linter_collection (client : Client σ) (last : Option Fault) {c : Collection}
    (hw : h.Watched client id linter c) (hheld : linter.held = [.collection]) :
    ∃ h', drain (popLinter id) (releaseLinter client id) 1 last h = (.ok last, h') ∧
      ((h.setLinterHeld id []).withStore linter.collection c.clear.retire []).Told
        c.emitter.listeners h' := by
  have hpop := popLinter_of_held hw.linter_eq hheld
  have hc : (h.setLinterHeld id []).collection? linter.collection = some c := hw.collection_eq
  obtain ⟨h', hdispose, htold⟩ := disposeCollection_of_harmless client hc hw.alive hw.harmless
  have hrelease : releaseLinter client id .collection (h.setLinterHeld id []) = (.ok (), h') := by
    rw [releaseLinter, get_bind, Host.get?_setLinterHeld hw.linter_eq]
    exact hdispose
  refine ⟨h', ?_, htold⟩
  rw [drain_succ_of_release hpop hrelease, drain_zero]

/-- Releasing a linter whose collection has harmless observers: it is taken off its three channels,
its collection is emptied and disposed, and the host is otherwise as these observers leave it. -/
theorem disposeLinter_of_watched (client : Client σ) {c : Collection}
    (hw : h.Watched client id linter c) (hheld : linter.held = Linter.acquired) :
    ∃ h', disposeLinter client id h = (.ok (), h') ∧
      (h.withoutLinter id linter.collection c.clear.retire).Told c.emitter.listeners h' := by
  have hchannels : linter.held =
      [Channel.closed, .changed, .opened].map Linter.Holding.channel ++ [.collection] := hheld
  have hleft : Host.Watched { h.setLinterHeld id [.collection] with
      channels := h.channels.withoutLinter id } client id { linter with held := [.collection] } c :=
    ⟨Host.get?_setLinterHeld hw.linter_eq _, hw.collection_eq, hw.alive, hw.harmless⟩
  obtain ⟨h', hlast, htold⟩ := drain_linter_collection client none hleft rfl
  have hdrain : drain (popLinter id) (releaseLinter client id) linter.held.length none h =
      (.ok none, h') := by
    have hlength : linter.held.length = [Channel.closed, .changed, .opened].length + 1 := by
      rw [hheld]
      rfl
    rw [hlength, drain_linter_channels client _ hw.linter_eq hchannels]
    exact hlast
  refine ⟨h', ?_, ?_⟩
  · unfold disposeLinter
    rw [get_bind, hw.linter_eq]
    exact bind_of_ok hdrain
  · rw [Host.withoutLinter, ← Host.setLinterHeld_setLinterHeld h id [.collection] []]
    exact htold

/-- Releasing a linter whose collection has no observers. -/
theorem disposeLinter_of_feeds (client : Client σ) {c : Collection} (hf : h.Feeds id linter c)
    (hheld : linter.held = Linter.acquired) :
    disposeLinter client id h =
      (.ok (), h.withoutLinter id linter.collection c.clear.retire) := by
  obtain ⟨h', hdispose, htold⟩ := disposeLinter_of_watched client (hf.watched client) hheld
  rw [hf.unobserved] at htold
  rw [hdispose, htold.eq_of_nobody]

end Linter

/-! ### Releasing a service -/

section Service

variable {id : ServiceId} {service : Service} {rest : List Service.Holding}

theorem popService_of_held (hs : h.services.get? id.number = some service)
    {thing : Service.Holding} (hheld : service.held = thing :: rest) :
    popService id h = (.ok (some thing), h.setServiceHeld id rest) := by
  obtain ⟨linter, held⟩ := service
  obtain rfl : held = thing :: rest := hheld
  unfold popService
  rw [get_bind, hs]
  rfl

/-- Only what a service holds can be taken away from it. -/
theorem popService_eq_some {thing : Service.Holding} {h' : Host σ}
    (hpop : popService id h = (.ok (some thing), h')) :
    ∃ linter rest, h.services.get? id.number = some ⟨linter, thing :: rest⟩ ∧
      h' = h.setServiceHeld id rest := by
  unfold popService at hpop
  rw [get_bind] at hpop
  rcases hs : h.services.get? id.number with _ | ⟨linter, _ | ⟨first, rest⟩⟩
  · rw [hs] at hpop
    cases hpop
  · rw [hs] at hpop
    cases hpop
  · rw [hs] at hpop
    cases hpop
    exact ⟨linter, rest, rfl, rfl⟩

/-- The linter comes last. -/
theorem drain_service_linter (client : Client σ) (last : Option Fault) {linter : Linter}
    {c : Collection} (hs : h.services.get? id.number = some service)
    (hheld : service.held = [.linter])
    (hw : h.Watched client service.linter linter c) (hlinter : linter.held = Linter.acquired) :
    ∃ h', drain (popService id) (releaseService client id) 1 last h = (.ok last, h') ∧
      ((h.withoutLinter service.linter linter.collection c.clear.retire).setServiceHeld id []).Told
        c.emitter.listeners h' := by
  have hpop := popService_of_held hs hheld
  have hw' : (h.setServiceHeld id []).Watched client service.linter linter c :=
    ⟨hw.linter_eq, hw.collection_eq, hw.alive, hw.harmless⟩
  obtain ⟨h', hdispose, htold⟩ := disposeLinter_of_watched client hw' hlinter
  have hrelease : releaseService client id .linter (h.setServiceHeld id []) = (.ok (), h') := by
    rw [releaseService, get_bind, Host.get?_setServiceHeld hs]
    exact hdispose
  refine ⟨h', ?_, htold⟩
  rw [drain_succ_of_release hpop hrelease, drain_zero]

/-- Releasing a service that has acquired its linter and nothing else, before anybody observes its
collection. -/
theorem releaseAll_of_linter (client : Client σ) {linter : Linter} {c : Collection}
    (hs : h.services.get? id.number = some service) (hheld : service.held = [.linter])
    (hf : h.Feeds service.linter linter c) (hlinter : linter.held = Linter.acquired) :
    releaseAll client id h =
      (.ok (), (h.withoutLinter service.linter linter.collection c.clear.retire).setServiceHeld
        id []) := by
  obtain ⟨h', hdrain, htold⟩ :=
    drain_service_linter client none hs hheld (hf.watched client) hlinter
  rw [hf.unobserved] at htold
  rw [htold.eq_of_nobody] at hdrain
  unfold releaseAll
  rw [get_bind, hs]
  simp only [hheld, List.length_singleton]
  exact bind_of_ok hdrain

/-- Releasing a service that has acquired everything. -/
theorem releaseAll_of_acquired (client : Client σ) {linter : Linter} {c : Collection}
    (hs : h.services.get? id.number = some service) (hheld : service.held = Service.acquired)
    (hw : h.Watched client service.linter linter c) (hlinter : linter.held = Linter.acquired) :
    ∃ h', releaseAll client id h = (.ok (), h') ∧
      (h.withoutService id service.linter linter.collection c.clear.retire).Told
        c.emitter.listeners h' := by
  -- the host after the first two rounds, which release the listener and the command
  let left : Host σ :=
    { h.setServiceHeld id [.linter] with
      channels := h.channels.modify .configured (·.release (.service id))
      commands := h.commands.erase validateCommand }
  have hs₁ : ((h.setServiceHeld id [.command, .linter]).release
      (.listener .configured (.service id))).services.get? id.number =
        some { service with held := [.command, .linter] } :=
    Host.get?_setServiceHeld hs [.command, .linter]
  have hpop₁ := popService_of_held hs hheld
  have hpop₂ : popService id ((h.setServiceHeld id [.command, .linter]).release
      (.listener .configured (.service id))) =
        (.ok (some .command), ((h.setServiceHeld id [.command, .linter]).release
          (.listener .configured (.service id))).setServiceHeld id [.linter]) :=
    popService_of_held hs₁ rfl
  have hrelease₂ : releaseService client id .command
      (((h.setServiceHeld id [.command, .linter]).release
        (.listener .configured (.service id))).setServiceHeld id [.linter]) = (.ok (), left) := by
    change (_, ({ (h.setServiceHeld id [.command, .linter]).setServiceHeld id [.linter] with
      channels := h.channels.modify .configured (·.release (.service id))
      commands := h.commands.erase validateCommand } : Host σ)) = (_, left)
    rw [Host.setServiceHeld_setServiceHeld]
  have hs' : left.services.get? id.number = some { service with held := [.linter] } :=
    Host.get?_setServiceHeld hs [.linter]
  have hw' : left.Watched client service.linter linter c :=
    ⟨hw.linter_eq, hw.collection_eq, hw.alive, hw.harmless⟩
  have hlast : (left.withoutLinter service.linter linter.collection c.clear.retire).setServiceHeld
      id [] = h.withoutService id service.linter linter.collection c.clear.retire := by
    change ({ (h.setServiceHeld id [.linter]).setServiceHeld id [] with
      linters := _, collections := _, log := _, channels := _, commands := _ } : Host σ) = _
    rw [Host.setServiceHeld_setServiceHeld]
    rfl
  obtain ⟨h', hrest, htold⟩ := drain_service_linter client none hs' rfl hw' hlinter
  rw [hlast] at htold
  have hdrain : drain (popService id) (releaseService client id) 3 none h = (.ok none, h') := by
    rw [drain_succ_of_release hpop₁ rfl]
    exact (drain_succ_of_release hpop₂ hrelease₂).trans hrest
  refine ⟨h', ?_, htold⟩
  unfold releaseAll
  rw [get_bind, hs]
  simp only [hheld, Service.acquired, List.length_cons, List.length_nil]
  exact bind_of_ok hdrain

/-- Disposing a service: everything it holds is released, and the log says so. -/
theorem deactivate_of_watched (client : Client σ) {linter : Linter} {c : Collection}
    (hs : h.services.get? id.number = some service) (hheld : service.held = Service.acquired)
    (hw : h.Watched client service.linter linter c) (hlinter : linter.held = Linter.acquired) :
    ∃ h', deactivate client id h = (.ok (), h'.logged .deactivated) ∧
      (h.withoutService id service.linter linter.collection c.clear.retire).Told
        c.emitter.listeners h' := by
  obtain ⟨h', hrelease, htold⟩ := releaseAll_of_acquired client hs hheld hw hlinter
  refine ⟨h', ?_, htold⟩
  unfold deactivate
  rw [bind_of_ok hrelease]
  rfl

/-- Disposing a service that holds nothing only says so in the log. -/
theorem deactivate_of_released (client : Client σ)
    (hs : h.services.get? id.number = some service) (hheld : service.held = []) :
    deactivate client id h = (.ok (), h.logged .deactivated) := by
  have hrelease : releaseAll client id h = (.ok (), h) := by
    unfold releaseAll
    rw [get_bind, hs]
    simp only [hheld, List.length_nil]
    rfl
  unfold deactivate
  rw [bind_of_ok hrelease]
  rfl

end Service

end HostM

end Edl
