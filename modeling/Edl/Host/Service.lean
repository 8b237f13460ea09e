/-
Language services: a linter, a command, and an ear for the configuration.

A service attaches a linter to the host, registers a command that scans the active document, and
scans all open documents again when the configuration of the language changes.  Like a linter it is
activated as a whole or not at all, and gives everything back when it is disposed.

Main definitions:

* `Edl.HostM.activate`, `Edl.HostM.deactivate` — the life of a service;
* `Edl.HostM.validateActive` — what its command does;
* `Edl.HostM.serviceNotified` — what a service does when it is told an event.
-/

import Edl.Host.Linter

set_option relaxedAutoImplicit false
set_option autoImplicit false

namespace Edl

/-- The command that scans the active document. -/
def validateCommand : String := "edl.validateFile"

/-- What the user is told after the active document was scanned. -/
def validationCompleted : String := "EDL file validation completed!"

/-- What the user is told when the active document cannot be scanned. -/
def noEdlDocument : String := "Please open an EDL file to validate."

namespace HostM

variable {σ : Type}

/-! ### While a service is active -/

/-- Scans the active document, if it is one of the language, and tells the user. -/
def validateActive (client : Client σ) (id : ServiceId) : HostM σ (Option (List Diagnostic)) := do
  match (← get).services.get? id.number with
  | none => return none
  | some service =>
      match (← get).workspace.activeDocument with
      | some d =>
          if d.isEdl then
            let found ← validate client service.linter d
            showInformation validationCompleted
            return some found
          else
            showWarning noEdlDocument
            return none
      | none => do
          showWarning noEdlDocument
          return none

/-- What a service does when it is told an event. -/
def serviceNotified (client : Client σ) (id : ServiceId) : Event → HostM σ Unit
  | .configured keys => do
      match (← get).services.get? id.number with
      | some service =>
          if Config.affects keys "edl" then revalidate client service.linter else pure ()
      | none => pure ()
  | _ => pure ()

/-! ### Releasing -/

/-- Takes away the last thing that a service acquired and still holds. -/
def popService (id : ServiceId) : HostM σ (Option Service.Holding) := do
  match (← get).services.get? id.number with
  | some { held := thing :: rest, .. } => do
      modify fun h =>
        { h with services := h.services.modify id.number fun s => { s with held := rest } }
      return some thing
  | _ => return none

/-- Gives back one thing that a service held. -/
def releaseService (client : Client σ) (id : ServiceId) : Service.Holding → HostM σ Unit
  | .configuration => modify fun h => h.release (.listener .configured (.service id))
  | .command => modify fun h => h.release (.command validateCommand)
  | .linter => do
      match (← get).services.get? id.number with
      | some service => disposeLinter client service.linter
      | none => pure ()

/-- Releases everything that a service still holds, last acquired first. -/
def releaseAll (client : Client σ) (id : ServiceId) : HostM σ Unit := do
  match (← get).services.get? id.number with
  | some service => do
      let fault ← drain (popService id) (releaseService client id) service.held.length none
      throwIfSome fault
  | none => pure ()

/-- Disposes a service, and says so in the log. -/
def deactivate (client : Client σ) (id : ServiceId) : HostM σ Unit := do
  releaseAll client id
  write .deactivated

/-! ### Activating -/

/-- Notes that a service acquired something. -/
def hold (id : ServiceId) (thing : Service.Holding) : HostM σ Unit :=
  modify fun h =>
    { h with services := h.services.modify id.number fun s => { s with held := thing :: s.held } }

/-- Activates a service with the given rules. -/
def activate (client : Client σ) (rules : List Lint.Rule) : HostM σ ServiceId := do
  let linter ← attachLinter client rules
  let id : ServiceId := ⟨(← get).services.next⟩
  modify fun h => { h with services := h.services.add { linter, held := [.linter] } }
  let acquire : HostM σ Unit := do
    let _ ← registerCommand validateCommand (.validateActive id)
    hold id .command
    let _ ← subscribe .configured (.service id)
    hold id .configuration
  orUndo acquire (releaseAll client id)
  write .activated
  return id

end HostM

end Edl
