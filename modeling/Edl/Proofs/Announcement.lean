/-
Updates of the configuration: refused as a whole, or carried out and announced.

An update is refused before anything is stored, and for one reason only: it gives one of the two
switches a value that is neither null nor a truth value.  What is stored already cannot be the
reason, since the configuration of a host that can come about is always readable.  An accepted
update overrides the configuration and announces exactly the keys whose value is not the same as
before; the listeners are told afterwards, so a fault of theirs comes too late to undo it.

Main results:

* `Edl.Config.settings_override_eq_error_iff`, `Edl.Workspace.updateConfiguration_eq_error_iff` —
  when an update is refused, and for which fault;
* `Edl.Config.mem_changedKeys_iff` — what is announced;
* `Edl.HostM.configuration_updates_are_exact` — **updates are atomic and exactly announced**, and no
  change of the settings goes unannounced;
* `Edl.HostM.accepted_update_can_fail` — a fault of an update need not be a refusal.
-/

import Edl.Proofs.Reachable
import Edl.Proofs.SingleService

set_option relaxedAutoImplicit false
set_option autoImplicit false

namespace Edl.Config

/-! ### Values that a switch cannot have -/

/-- A value that is neither null nor a truth value. -/
def Value.NoPosition (value : Value) : Prop :=
  value ≠ .null ∧ ∀ b, value ≠ .bool b

theorem Switch.position_eq_error_iff {s : Switch} {value : Value} {f : Fault} :
    s.position value = .error f ↔ value.NoPosition ∧ f = .settingNotBool s.key value := by
  cases value <;> simp [position, Value.NoPosition, eq_comm]

theorem Switch.exists_eq_fullKey_iff {key : String} :
    (∃ s : Switch, key = s.fullKey) ↔
      key = "edl.linting.enabled" ∨ key = "edl.intellisense.enabled" := by
  constructor
  · rintro ⟨_ | _, rfl⟩
    · exact .inl rfl
    · exact .inr rfl
  · rintro (rfl | rfl)
    · exact ⟨.linting, rfl⟩
    · exact ⟨.intellisense, rfl⟩

/-- A flat configuration cannot be read because of the first switch that has no position. -/
theorem settings_eq_error_iff {t : Table Value} (ht : Flat t) {f : Fault} :
    settings t = .error f ↔
      Switch.linting.position ((t.find? Switch.linting.fullKey).getD .null) = .error f ∨
      (∃ x, Switch.linting.position ((t.find? Switch.linting.fullKey).getD .null) = .ok x) ∧
        Switch.intellisense.position ((t.find? Switch.intellisense.fullKey).getD .null) =
          .error f := by
  rw [settings_of_flat ht]
  cases Switch.linting.position ((t.find? Switch.linting.fullKey).getD .null) with
  | error g => simp [bind, Except.bind]
  | ok x =>
      cases Switch.intellisense.position ((t.find? Switch.intellisense.fullKey).getD .null) with
      | error g => simp [bind, Except.bind]
      | ok y => simp [bind, Except.bind, pure, Except.pure]

/-- After an update a switch that had a position has none only if the update says so. -/
theorem Switch.position_override_eq_error_iff {before updates : Table Value} {s : Switch} {x : Bool}
    (hbefore : s.position ((before.find? s.fullKey).getD .null) = .ok x) {f : Fault} :
    s.position (((before.override updates).find? s.fullKey).getD .null) = .error f ↔
      ∃ value, updates.find? s.fullKey = some value ∧ value.NoPosition ∧
        f = .settingNotBool s.key value := by
  rw [Table.find?_override]
  cases updates.find? s.fullKey with
  | none => simp [hbefore]
  | some value => simp [position_eq_error_iff]

/-- An update makes a readable configuration unreadable exactly if it gives a switch a value that
is no position. -/
theorem settings_override_eq_error_iff {before updates : Table Value} (hbefore : Flat before)
    (hupdates : Flat updates)
    (hread : ∀ s : Switch, ∃ x, s.position ((before.find? s.fullKey).getD .null) = .ok x) :
    (∃ f, settings (before.override updates) = .error f) ↔
      ∃ (s : Switch) (value : Value), updates.find? s.fullKey = some value ∧
        value.NoPosition := by
  have hswitch : ∀ s f, _ := fun s f =>
    @Switch.position_override_eq_error_iff before updates s _ (hread s).choose_spec f
  simp only [settings_eq_error_iff (flat_override hbefore hupdates), hswitch]
  constructor
  · rintro ⟨f, ⟨value, hfind, hvalue, -⟩ | ⟨-, value, hfind, hvalue, -⟩⟩
    · exact ⟨.linting, value, hfind, hvalue⟩
    · exact ⟨.intellisense, value, hfind, hvalue⟩
  · rintro ⟨s, value, hfind, hvalue⟩
    -- the switch that is read first is blamed first
    cases hlinting : Switch.linting.position
        (((before.override updates).find? Switch.linting.fullKey).getD .null) with
    | error f => exact ⟨f, .inl ((hswitch _ f).1 hlinting)⟩
    | ok x =>
        cases s with
        | linting =>
            have herror := (hswitch .linting _).2 ⟨value, hfind, hvalue, rfl⟩
            rw [hlinting] at herror
            cases herror
        | intellisense => exact ⟨_, .inr ⟨⟨x, rfl⟩, value, hfind, hvalue, rfl⟩⟩

/-! ### Announced keys -/

/-- The announced keys are those that were updated to another value. -/
theorem mem_changedKeys_iff {before updates : Table Value} {key : String} :
    key ∈ changedKeys before updates ↔ ∃ value, updates.find? key = some value ∧
      ((before.find? key).getD .null).same value = false := by
  simp only [changedKeys, List.mem_map, List.mem_filter, Table.find?_eq_some_iff]
  constructor
  · rintro ⟨⟨name, value⟩, ⟨hmem, hdiff⟩, rfl⟩
    exact ⟨value, hmem, by simpa using hdiff⟩
  · rintro ⟨value, hmem, hdiff⟩
    exact ⟨(key, value), ⟨hmem, by simpa using hdiff⟩, rfl⟩

theorem nodup_changedKeys (before updates : Table Value) : (changedKeys before updates).Nodup :=
  updates.distinct.sublist (List.filter_sublist.map _)

theorem ne_nil_of_affects {keys : List String} {name : String} (h : affects keys name = true) :
    keys ≠ [] := by
  rintro rfl
  cases h

end Edl.Config

namespace Edl.Workspace

variable {w : Workspace} {entries : List (String × Config.Value)}

/-- An update is refused if the configuration could not be read after it, with that fault. -/
theorem updateConfiguration_eq_error_iff {f : Fault} :
    w.updateConfiguration entries = .error f ↔
      Config.settings (w.configuration.override (Config.flatten entries)) = .error f := by
  unfold updateConfiguration
  cases hsettings : Config.settings (w.configuration.override (Config.flatten entries)) with
  | error g => simp [hsettings, bind, Except.bind]
  | ok settings => simp [hsettings, bind, Except.bind, pure, Except.pure]

/-- A sound workspace refuses an update exactly if it gives a switch a value that is no position. -/
theorem Sound.exists_updateConfiguration_eq_error_iff (hw : w.Sound) :
    (∃ f, w.updateConfiguration entries = .error f) ↔
      ∃ (s : Config.Switch) (value : Config.Value),
        (Config.flatten entries).find? s.fullKey = some value ∧ value.NoPosition := by
  simp only [updateConfiguration_eq_error_iff]
  exact Config.settings_override_eq_error_iff hw.flat (Config.flat_flatten entries)
    (hw.readable.position hw.flat)

/-- The fault of a refused update names a switch and the value that it cannot have. -/
theorem Sound.eq_settingNotBool_of_updateConfiguration (hw : w.Sound) {f : Fault}
    (h : w.updateConfiguration entries = .error f) :
    ∃ (s : Config.Switch) (value : Config.Value),
      (Config.flatten entries).find? s.fullKey = some value ∧ value.NoPosition ∧
        f = .settingNotBool s.key value := by
  have hflat := Config.flat_override hw.flat (Config.flat_flatten entries)
  rw [updateConfiguration_eq_error_iff, Config.settings_eq_error_iff hflat] at h
  have hblame : ∀ s : Config.Switch, s.position (((w.configuration.override
      (Config.flatten entries)).find? s.fullKey).getD .null) = .error f → _ := fun s =>
    (Config.Switch.position_override_eq_error_iff (hw.readable.position hw.flat s).choose_spec).1
  rcases h with h | ⟨-, h⟩
  · exact ⟨.linting, hblame .linting h⟩
  · exact ⟨.intellisense, hblame .intellisense h⟩

end Edl.Workspace

namespace Edl.HostM

variable {σ : Type} {h : Host σ} {entries : List (String × Config.Value)}

/-- A refused update leaves the host as it is, so nobody is told anything. -/
theorem updateConfiguration_of_error (client : Client σ) {f : Fault}
    (hupdate : h.workspace.updateConfiguration entries = .error f) :
    updateConfiguration client entries h = (.error f, h) := by
  unfold updateConfiguration
  rw [get_bind, hupdate, settle_bind_error]

/-- An accepted update is stored first, and then announced if a value changed. -/
theorem updateConfiguration_of_ok (client : Client σ) {w : Workspace} {keys : List String}
    (hupdate : h.workspace.updateConfiguration entries = .ok (w, keys)) :
    updateConfiguration client entries h =
      (if keys.isEmpty then pure () else fire client .configured (.configured keys))
        { h with workspace := w } := by
  unfold updateConfiguration
  rw [get_bind, hupdate, settle_bind_ok]

/-- **Updates of the configuration are atomic and exactly announced.**  On a host that can come
about the configuration can be read.  An update is refused exactly if its leaves give one of the two
switches a value that is neither null nor a truth value, and then the host stays as it is.  Any
other update overrides the configuration by its leaves, and then the listeners are told, if there
are any, the keys whose value is not the same as before, a missing value being null.  If the
settings differ afterwards, an announcement is made and it concerns the section `edl`. -/
theorem configuration_updates_are_exact (hh : h.Reachable) (client : Client σ)
    (entries : List (String × Config.Value)) :
    ∃ before, h.workspace.settings = .ok before ∧
      ((∃ f, h.workspace.updateConfiguration entries = .error f) ↔
        ∃ key value, (key = "edl.linting.enabled" ∨ key = "edl.intellisense.enabled") ∧
          (Config.flatten entries).find? key = some value ∧
          value ≠ .null ∧ ∀ b, value ≠ .bool b) ∧
      (∀ f, h.workspace.updateConfiguration entries = .error f →
        (∃ key value, f = .settingNotBool key value) ∧
          updateConfiguration client entries h = (.error f, h)) ∧
      ∀ w keys, h.workspace.updateConfiguration entries = .ok (w, keys) →
        w = { h.workspace with
          configuration := h.workspace.configuration.override (Config.flatten entries) } ∧
        (∀ key, w.configuration.find? key =
          ((Config.flatten entries).find? key).or (h.workspace.configuration.find? key)) ∧
        keys.Nodup ∧
        (∀ key, key ∈ keys ↔ ∃ value, (Config.flatten entries).find? key = some value ∧
          ((h.workspace.configuration.find? key).getD .null).same value = false) ∧
        updateConfiguration client entries h =
          (if keys.isEmpty then pure () else fire client .configured (.configured keys))
            { h with workspace := w } ∧
        ∃ after, w.settings = .ok after ∧
          (after ≠ before → keys ≠ [] ∧ Config.affects keys "edl" = true) := by
  have hw := hh.wellFormed.sound
  obtain ⟨before, hbefore⟩ := hw.readable
  refine ⟨before, hbefore, ?_, fun f hrefused => ⟨?_, updateConfiguration_of_error client hrefused⟩,
    fun w keys haccepted => ?_⟩
  · rw [hw.exists_updateConfiguration_eq_error_iff]
    constructor
    · rintro ⟨s, value, hfind, hvalue⟩
      exact ⟨s.fullKey, value, Config.Switch.exists_eq_fullKey_iff.1 ⟨s, rfl⟩, hfind, hvalue⟩
    · rintro ⟨key, value, hkey, hfind, hvalue⟩
      obtain ⟨s, rfl⟩ := Config.Switch.exists_eq_fullKey_iff.2 hkey
      exact ⟨s, value, hfind, hvalue⟩
  · obtain ⟨s, value, -, -, rfl⟩ := hw.eq_settingNotBool_of_updateConfiguration hrefused
    exact ⟨_, _, rfl⟩
  · have hrun := updateConfiguration_of_ok client haccepted
    have hsame := Workspace.settings_updateConfiguration hw.flat hw.readable haccepted
    obtain ⟨rfl, rfl, after, hafter⟩ := Workspace.updateConfiguration_eq_ok haccepted
    refine ⟨rfl, Table.find?_override _ _, Config.nodup_changedKeys _ _,
      fun key => Config.mem_changedKeys_iff, hrun, after, hafter, fun hne => ?_⟩
    -- an update that does not concern the section leaves the settings as they were
    have haffects : Config.affects (Config.changedKeys h.workspace.configuration
        (Config.flatten entries)) "edl" = true := by
      refine Decidable.byContradiction fun hnot => hne ?_
      have heq := hsame (Bool.not_eq_true _ ▸ hnot)
      rw [hafter, hbefore] at heq
      exact Except.ok.inj heq
    exact ⟨Config.ne_nil_of_affects haffects, haffects⟩

theorem configuration_updates_are_exact_loosely :
    ∃ (client : Client Unit) (h : Host Unit), h.Reachable ∧
      (∃ f, updateConfiguration client [("edl", .map [("linting.enabled", .int 1)])] h =
        (.error f, h)) ∧
      ∃ w keys, h.workspace.updateConfiguration
          [("edl", .map [("linting", .map [("enabled", .bool false)])]), ("x", .bool true)] =
            .ok (w, keys) ∧
        "edl.linting.enabled" ∈ keys ∧ "x" ∉ keys ∧ Config.affects keys "edl" = true := by
  let old : List (String × Config.Value) := [("edl.linting.enabled", .bool true), ("x", .int 1)]
  let new : List (String × Config.Value) :=
    [("edl", .map [("linting", .map [("enabled", .bool false)])]), ("x", .bool true)]
  let client : Client Unit := .idle
  have hcreate : Workspace.create old = .ok { configuration := Config.flatten old } := rfl
  have hh : Host.Reachable _ := ⟨_, _, (), hcreate, .refl⟩
  obtain ⟨-, -, hiff, hrefused, -⟩ :=
    configuration_updates_are_exact hh client [("edl", .map [("linting.enabled", .int 1)])]
  obtain ⟨before, hbefore, -, -, haccepted⟩ := configuration_updates_are_exact hh client new
  -- one is the same as true, but it is not a truth value
  obtain ⟨f, hf⟩ := hiff.2 ⟨"edl.linting.enabled", .int 1, .inl rfl, rfl, by simp, by simp⟩
  obtain ⟨-, -, -, hkeys, -, after, hafter, hchange⟩ := haccepted _ _ rfl
  have hne : after ≠ before := by
    have hoff : after = ⟨false, true⟩ := Except.ok.inj (hafter.symm.trans rfl)
    have hon : before = ⟨true, true⟩ := Except.ok.inj (hbefore.symm.trans rfl)
    rw [hoff, hon]
    decide
  refine ⟨client, _, hh, ⟨f, (hrefused f hf).2⟩, _, _, rfl, ?_, ?_, (hchange hne).2⟩
  · exact (hkeys _).2 ⟨.bool false, rfl, by decide +kernel⟩
  · rintro hx
    obtain ⟨value, hvalue, hdiff⟩ := (hkeys "x").1 hx
    obtain rfl : Config.Value.bool true = value := Option.some.inj hvalue
    exact absurd hdiff (by decide +kernel)

/-- Not every fault of an update is a refusal.  The update here gives a switch a truth value and is
stored, and then the service that it switches on cannot scan a document, for its limit on the length
of a line is negative. -/
theorem accepted_update_can_fail :
    ∃ (client : Client Unit) (h h' : Host Unit), h.Reachable ∧
      updateConfiguration client [("edl.linting.enabled", .bool true)] h =
        (.error .negativePosition, h') ∧
      (¬∃ key value, (key = "edl.linting.enabled" ∨ key = "edl.intellisense.enabled") ∧
        (Config.flatten [("edl.linting.enabled", .bool true)]).find? key = some value ∧
        value ≠ .null ∧ ∀ b, value ≠ .bool b) ∧
      h.workspace.configuration.find? "edl.linting.enabled" = some (.bool false) ∧
      h'.workspace.configuration.find? "edl.linting.enabled" = some (.bool true) := by
  let client : Client Unit := .idle
  have hclient : client.Within .all .all := Client.within_idle _ _
  let w : Workspace := { configuration := Config.flatten [("edl.linting.enabled", .bool false)] }
  have hcreate : Workspace.create [("edl.linting.enabled", .bool false)] = .ok w := rfl
  have hpermitted : (Action.activate [Lint.lineTooLongRule (-1)]).Permitted .all := by
    simp [Action.Permitted]
  obtain ⟨h₀, hopened⟩ : ∃ h₀, h₀ = Host.after client [.openDocument "a" "x"]
      { workspace := w, client := () } := ⟨_, rfl⟩
  obtain ⟨h, hdef⟩ : ∃ h, h = (activate client [Lint.lineTooLongRule (-1)] h₀).2 := ⟨_, rfl⟩
  have hh : h.Reachable := by
    rw [hdef, hopened]
    exact ⟨_, _, (), hcreate, (hclient.leads_after .refl [.openDocument "a" "x"]).step
      (hclient.act (.activate [Lint.lineTooLongRule (-1)]) hpermitted)⟩
  -- with linting off nothing is scanned, so the service comes up
  have hactivated : (activate client [Lint.lineTooLongRule (-1)] h₀).1 = .ok ⟨0⟩ := by
    rw [hopened]
    rfl
  rw [after_of_bare client (bare_mk w ())] at hopened
  obtain ⟨-, hworkspace, l, linter, hrules, hs⟩ :=
    singleService_of_activate client (hopened ▸ bare_mk _ ()) (Prod.ext hactivated hdef.symm)
  obtain ⟨hresult, hafter, -⟩ :=
    update_of_singleService client hs [("edl.linting.enabled", .bool true)]
  rw [hopened] at hworkspace
  rw [hrules, hworkspace] at hresult hafter
  have hbefore : h.workspace.configuration.find? "edl.linting.enabled" = some (.bool false) := by
    rw [hworkspace]
    rfl
  have hstored := congrArg (·.configuration.find? "edl.linting.enabled") hafter
  refine ⟨client, h, _, hh, Prod.ext (hresult.trans rfl) rfl, ?_, hbefore, hstored.trans rfl⟩
  rintro ⟨key, value, -, hfind, -, hvalue⟩
  have hbool : (key, value) = ("" ++ "edl.linting.enabled", .bool true) :=
    List.mem_singleton.1 (Table.find?_eq_some_iff.1 hfind)
  exact hvalue true (congrArg Prod.snd hbool)

end Edl.HostM
