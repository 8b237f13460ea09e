/-
Requests to a host.

A request first changes the workspace and then tells the listeners on the channel that it concerns,
in order of subscription, those that were there when the telling began.  A request that the
workspace refuses tells nobody; a listener that fails makes the request fail, but the workspace has
changed all the same.

Main definitions:

* `Edl.HostM.fire` — telling the listeners on a channel;
* `Edl.HostM.openDocument`, `Edl.HostM.changeDocument`, `Edl.HostM.closeDocument`,
  `Edl.HostM.setActive`, `Edl.HostM.updateConfiguration`, `Edl.HostM.execute` — the requests;
* `Edl.Handler.run` — what a registered command does;
* `Edl.Request`, `Edl.HostM.perform` — the requests as data, and histories of them.
-/

import Edl.Host.Service

set_option relaxedAutoImplicit false
set_option autoImplicit false

namespace Edl

/-- What running a command gives. -/
inductive Answer where
  | value (v : Config.Value)
  | diagnostics (found : List Diagnostic)

/-- A request to a host. -/
inductive Request where
  | openDocument (uri text : String) (language : String := edlLanguage)
  | changeDocument (uri text : String)
  | closeDocument (uri : String)
  | setActive (uri : Option String)
  | updateConfiguration (entries : List (String × Config.Value))
  | execute (name : String)

/-- What a handler does when its command is executed. -/
def Handler.run {σ : Type} (client : Client σ) : Handler → HostM σ Answer
  | .validateActive id => do
      match ← HostM.validateActive client id with
      | some found => return .diagnostics found
      | none => return .value .null
  | .client number => return .value (← client.invoke number)

namespace HostM

variable {σ : Type}

/-- Tells a listener an event. -/
def notify (client : Client σ) (event : Event) : Listener → HostM σ Unit
  | .linter id => linterNotified client id event
  | .service id => serviceNotified client id event
  | .client name => client.notify name event

/-- Tells the listeners on a channel an event, one after another. -/
def fire (client : Client σ) (channel : Channel) (event : Event) : HostM σ Unit := do
  ((← get).channels.get channel).listeners.forM (notify client event)

/-- Changes the workspace as a result says, or fails. -/
def settle {α : Type} (result : Except Fault (Workspace × α)) : HostM σ α := do
  let (workspace, a) ← ofExcept result
  modify fun h => { h with workspace }
  return a

/-- Opens a document and makes it the active one. -/
def openDocument (client : Client σ) (uri text : String) (language : String := edlLanguage) :
    HostM σ Document := do
  let d ← settle ((← get).workspace.openDocument uri text language)
  fire client .opened (.opened d)
  return d

/-- Replaces the text of an open document. -/
def changeDocument (client : Client σ) (uri text : String) : HostM σ Document := do
  let (before, after) ← settle ((← get).workspace.changeDocument uri text)
  fire client .changed (.changed after before.version)
  return after

/-- Closes an open document. -/
def closeDocument (client : Client σ) (uri : String) : HostM σ Unit := do
  let d ← settle ((← get).workspace.closeDocument uri)
  fire client .closed (.closed d)

/-- Makes an open document, or none, the active one. -/
def setActive (uri : Option String) : HostM σ Unit := do
  settle (((← get).workspace.setActive uri).map (·, ()))

/-- Updates the configuration; listeners are told if some value changed. -/
def updateConfiguration (client : Client σ) (entries : List (String × Config.Value)) :
    HostM σ Unit := do
  let keys ← settle ((← get).workspace.updateConfiguration entries)
  if keys.isEmpty then pure () else fire client .configured (.configured keys)

/-- Runs a registered command. -/
def execute (client : Client σ) (name : String) : HostM σ Answer := do
  match (← get).commands.find? name with
  | none => throw (.commandUnknown name)
  | some handler => handler.run client

/-- Carries out a request. -/
def perform (client : Client σ) : Request → HostM σ Unit
  | .openDocument uri text language => discard (openDocument client uri text language)
  | .changeDocument uri text => discard (changeDocument client uri text)
  | .closeDocument uri => closeDocument client uri
  | .setActive uri => setActive uri
  | .updateConfiguration entries => updateConfiguration client entries
  | .execute name => discard (execute client name)

/-- Carries out requests one after another, whether they are accepted or not. -/
def performAll (client : Client σ) : List Request → HostM σ Unit
  | [] => pure ()
  | request :: requests => do
      let _ ← attempt (perform client request)
      performAll client requests

end HostM

end Edl
