/-
Activation as a whole or not at all.

Whatever is open, registered or listening on a host, and whatever other services are active on it,
a service is refused for one of three reasons: its rules may not be used, a document that is open
cannot be scanned with them, or the command is taken.  The reasons are looked for in this order.  A
refused service leaves nothing behind.

Main results:

* `Edl.Host.Reachable.unheard` — nobody listens under the number of a linter that is not there yet;
* `Edl.HostM.activate_all_or_nothing` — **when activation fails, with which fault, and that it then
  changes nothing**.
-/

import Edl.Proofs.Reachable

set_option relaxedAutoImplicit false
set_option autoImplicit false

namespace Edl

namespace Host

variable {σ : Type} {h : Host σ} {rules : List Lint.Rule}

/-- Nobody listens under the number of the next linter. -/
theorem Reachable.unheard (hh : h.Reachable) : h.Unheard := by
  intro channel hmem
  have hlt : h.linters.next < h.linters.next := (hh.wellFormed.listening channel _ hmem).2
  omega

/-- Some document that is open cannot be scanned with the rules. -/
def Unscannable (h : Host σ) (rules : List Lint.Rule) : Prop :=
  ∃ d ∈ h.workspace.documents.values, d.isEdl = true ∧
    ∃ f, Lint.scanLines rules 0 (Text.splitLines d.text) = .error f

/-- The first scan fails with the fault of the first document that cannot be scanned. -/
theorem firstScan_eq_error_iff {settings : Config.Settings}
    (hsettings : h.workspace.settings = .ok settings) (hrules : Lint.checkRules rules = .ok ())
    {f : Fault} :
    (h.firstScan rules).1 = .error f ↔ settings.linting = true ∧
      FirstFault (fun d => Lint.scanLines rules 0 (Text.splitLines d.text))
        h.workspace.documents.values f := by
  have hscan := fun d f => @Workspace.scan_eq_error_iff _ _ hsettings _ hrules d f
  rw [firstScan, Collection.rescan_eq_error_iff]
  cases hlinting : settings.linting with
  | true => simp [firstFault_congr (by simpa [hlinting] using hscan)]
  | false =>
      -- without linting no scan fails
      constructor
      · rintro ⟨front, d, back, -, -, hfault, -⟩
        exact absurd ((hscan d f).1 hfault).1 (by simp [hlinting])
      · rintro ⟨h, -⟩
        cases h

theorem firstScan_eq_ok_iff {settings : Config.Settings}
    (hsettings : h.workspace.settings = .ok settings) (hrules : Lint.checkRules rules = .ok ()) :
    (h.firstScan rules).1 = .ok () ↔ ¬(settings.linting = true ∧ h.Unscannable rules) := by
  have hscan := @firstScan_eq_error_iff σ h rules settings hsettings hrules
  rw [Unscannable, ← exists_firstFault_iff]
  cases hfirst : (h.firstScan rules).1 with
  | error f =>
      obtain ⟨hlinting, hf⟩ := hscan.1 hfirst
      simp only [reduceCtorEq, false_iff]
      exact fun hnone => hnone ⟨hlinting, f, hf⟩
  | ok _ =>
      simp only [true_iff]
      rintro ⟨hlinting, f, hf⟩
      have herror := hscan.2 ⟨hlinting, hf⟩
      rw [hfirst] at herror
      cases herror

end Host

namespace HostM

variable {σ : Type} {h : Host σ} {rules : List Lint.Rule}

/-- Activation fails with the fault of the first reason to refuse the service. -/
theorem activate_fst_eq_error_iff (client : Client σ) {settings : Config.Settings}
    (hsettings : h.workspace.settings = .ok settings) {f : Fault} :
    (activate client rules h).1 = .error f ↔
      Lint.checkRules rules = .error f ∨
      Lint.checkRules rules = .ok () ∧ settings.linting = true ∧
        FirstFault (fun d => Lint.scanLines rules 0 (Text.splitLines d.text))
          h.workspace.documents.values f ∨
      Lint.checkRules rules = .ok () ∧ ¬(settings.linting = true ∧ h.Unscannable rules) ∧
        h.commands.contains validateCommand = true ∧ f = .commandTaken validateCommand := by
  rw [activate_fst_eq_error, admission_eq_error_iff]
  cases hrules : Lint.checkRules rules with
  | error g => simp
  | ok _ =>
      have hscan := @Host.firstScan_eq_error_iff σ h rules settings hsettings hrules
      rw [hscan, Host.firstScan_eq_ok_iff hsettings hrules]

/-- **Activation is all or nothing.**  On a host that can come about, a service is refused exactly
if its rules may not be used, or, linting being switched on, a document that is open cannot be
scanned with them, or the command is taken; the fault is that of the first of the three.  When it
is refused, everything is as before: workspace, channels, commands, messages, and every service
with its collection. -/
theorem activate_all_or_nothing (hh : h.Reachable) (client : Client σ) (rules : List Lint.Rule) :
    ∃ settings, h.workspace.settings = .ok settings ∧
      ((∃ f, (activate client rules h).1 = .error f) ↔
        (∃ f, Lint.checkRules rules = .error f) ∨
        settings.linting = true ∧ h.Unscannable rules ∨
        h.commands.contains validateCommand = true) ∧
      (∀ f, (activate client rules h).1 = .error f ↔
        Lint.checkRules rules = .error f ∨
        Lint.checkRules rules = .ok () ∧ settings.linting = true ∧
          FirstFault (fun d => Lint.scanLines rules 0 (Text.splitLines d.text))
            h.workspace.documents.values f ∨
        Lint.checkRules rules = .ok () ∧ ¬(settings.linting = true ∧ h.Unscannable rules) ∧
          h.commands.contains validateCommand = true ∧ f = .commandTaken validateCommand) ∧
      ∀ f h', activate client rules h = (.error f, h') →
        h.Restored h' ∧ ∀ s c, h.storeOf? s = some c → h'.storeOf? s = some c := by
  obtain ⟨settings, hsettings⟩ := hh.wellFormed.sound.readable
  have herror : ∀ f, _ := fun f => @activate_fst_eq_error_iff σ h rules client settings hsettings f
  refine ⟨settings, hsettings, ?_, herror, fun f h' hfailed => ?_⟩
  · constructor
    · rintro ⟨f, hf⟩
      rcases (herror f).1 hf with hrules | ⟨-, hlinting, hfirst⟩ | ⟨-, -, htaken, -⟩
      · exact .inl ⟨f, hrules⟩
      · exact .inr (.inl ⟨hlinting, exists_firstFault_iff.1 ⟨f, hfirst⟩⟩)
      · exact .inr (.inr htaken)
    · intro hreason
      -- the first of the reasons that apply is the one that counts
      cases hrules : Lint.checkRules rules with
      | error f => exact ⟨f, (herror f).2 (.inl hrules)⟩
      | ok _ =>
          by_cases hscan : settings.linting = true ∧ h.Unscannable rules
          · obtain ⟨f, hfirst⟩ := exists_firstFault_iff.2 hscan.2
            exact ⟨f, (herror f).2 (.inr (.inl ⟨hrules, hscan.1, hfirst⟩))⟩
          · rcases hreason with ⟨f, hf⟩ | hf | htaken
            · rw [hrules] at hf
              cases hf
            · exact absurd hf hscan
            · exact ⟨_, (herror _).2 (.inr (.inr ⟨hrules, hscan, htaken, rfl⟩))⟩
  · have hrefused := (activate_fst_eq_error client).1 (congrArg Prod.fst hfailed)
    obtain ⟨h'', hrun, hrestored⟩ := activate_of_refusal client hrefused
    obtain rfl : h'' = h' := congrArg Prod.snd (hrun.symm.trans hfailed)
    exact ⟨hrestored hh.unheard, fun s c => (hrestored hh.unheard).storeOf?_eq⟩

theorem activate_all_or_nothing_second :
    ∃ (client : Client Unit) (h h' : Host Unit) (rule : Lint.Rule) (c : Collection),
      h.Reachable ∧ (h.channels.get .opened).listeners = [.client "watch", .linter ⟨0⟩] ∧
      h.commands.contains validateCommand = true ∧ h.storeOf? ⟨0⟩ = some c ∧
      c.entries.find? "a" = some ⟨some 0, []⟩ ∧
      activate client [rule] h = (.error (.raised "bang"), h') ∧
      h.Restored h' ∧ h'.storeOf? ⟨0⟩ = some c := by
  have hcreate : Workspace.create [] = .ok { configuration := Config.flatten [] } := rfl
  have hclient : Client.Within .all .all (.idle : Client Unit) := Client.within_idle _ _
  have hh : Host.Reachable _ := ⟨_, _, (), hcreate,
    ((Host.Leads.refl.step (hclient.act (.subscribe .opened "watch") trivial)).step
      (hclient.act (.openDocument "a" "!" edlLanguage) trivial)).step
        (hclient.act (.activate []) trivial)⟩
  obtain ⟨_, -, -, -, hnothing⟩ := activate_all_or_nothing hh .idle
    [⟨"no-bang", "noBang", "style", "policy",
      fun line _ => if line = "!" then .error (.raised "bang") else .ok []⟩]
  obtain ⟨hrestored, hstores⟩ := hnothing (.raised "bang") _ rfl
  exact ⟨.idle, _, _,
    ⟨"no-bang", "noBang", "style", "policy",
      fun line _ => if line = "!" then .error (.raised "bang") else .ok []⟩, _, hh, rfl, rfl, rfl,
    rfl, rfl, hrestored, hstores ⟨0⟩ _ rfl⟩

end HostM

end Edl
