/-
The host: an editor with listeners.

The host holds a workspace, the listeners on its four channels, the registered commands, the window
messages, the log, and everything that attaches itself to it: collections, linters and language
services, each under a number of its own.  Besides these, *clients* may listen and register
commands; what a client does when it is called is up to it, and it may call the host again.

Numbers are given out when things are added, and nothing is taken out again, so whoever was given a
number finds the thing under it.  An operation on any other number does nothing and answers with
nothing.  This only makes it total: in a host that has come about through its own operations no
record refers to a number that was not given (`Edl.Host.WellFormed`).

An operation of the host is an `Edl.HostM`: it changes the host and ends with a value or a fault.
What it had done before a fault stays done.  Operations that may reach a client take it as an
argument, so a statement that holds for every client holds whatever the clients do.

Main definitions:

* `Edl.Channel`, `Edl.Event`, `Edl.Listener`, `Edl.Handler` — what is told to whom;
* `Edl.Host` — the state, with the state `σ` of the clients in it;
* `Edl.HostM`, `Edl.Client` — operations, and those of the clients;
* `Edl.HostM.drain` — releasing what is held, one thing after another.
-/

import Edl.Collection
import Edl.Lint.Scan
import Edl.Registry
import Edl.Workspace

set_option relaxedAutoImplicit false
set_option autoImplicit false

namespace Edl

/-! ### Events and listeners -/

/-- The number of a collection. -/
structure CollectionId where
  number : Nat
  deriving DecidableEq, Repr

/-- The number of a linter. -/
structure LinterId where
  number : Nat
  deriving DecidableEq, Repr

/-- The number of a language service. -/
structure ServiceId where
  number : Nat
  deriving DecidableEq, Repr

/-- The channels on which a host tells its listeners what happened. -/
inductive Channel where
  | opened
  | changed
  | closed
  | configured
  deriving DecidableEq, Repr

/-- What listeners are told. -/
inductive Event where
  | opened (document : Document)
  | changed (document : Document) (before : Int)
  | closed (document : Document)
  | configured (keys : List String)
  | diagnostics (uri : String)

/-- Who listens on a channel of the host. -/
inductive Listener where
  | linter (id : LinterId)
  | service (id : ServiceId)
  | client (name : String)
  deriving DecidableEq, Repr

/-- What a registered command runs. -/
inductive Handler where
  | validateActive (service : ServiceId)
  | client (number : Nat)
  deriving DecidableEq, Repr

/-- The listeners on the channels of a host. -/
structure Channels where
  opened : Emitter Listener := {}
  changed : Emitter Listener := {}
  closed : Emitter Listener := {}
  configured : Emitter Listener := {}

namespace Channels

/-- The listeners on a channel. -/
def get (cs : Channels) : Channel → Emitter Listener
  | .opened => cs.opened
  | .changed => cs.changed
  | .closed => cs.closed
  | .configured => cs.configured

/-- The channels with the listeners on one of them changed. -/
def modify (cs : Channels) (c : Channel) (f : Emitter Listener → Emitter Listener) : Channels :=
  match c with
  | .opened => { cs with opened := f cs.opened }
  | .changed => { cs with changed := f cs.changed }
  | .closed => { cs with closed := f cs.closed }
  | .configured => { cs with configured := f cs.configured }

@[simp] theorem get_modify_self (cs : Channels) (c : Channel)
    (f : Emitter Listener → Emitter Listener) : (cs.modify c f).get c = f (cs.get c) := by
  cases c <;> rfl

theorem get_modify_of_ne {cs : Channels} {c d : Channel}
    {f : Emitter Listener → Emitter Listener} (h : c ≠ d) : (cs.modify c f).get d = cs.get d := by
  cases c <;> cases d <;> simp_all [modify, get]

end Channels

/-! ### The state -/

/-- How urgent a message to the user is. -/
inductive Message.Level where
  | information
  | warning
  deriving DecidableEq, Repr

/-- A message shown to the user. -/
structure Message where
  level : Message.Level
  text : String
  deriving DecidableEq, Repr

/-- What a linter gives back when it is disposed. -/
inductive Linter.Holding where
  | channel (c : Channel)
  | collection
  deriving DecidableEq, Repr

/-- A linter: its rules, the collection it writes to, and what it holds, last acquired first. -/
structure Linter where
  rules : List Lint.Rule
  collection : CollectionId
  held : List Linter.Holding

/-- What a language service gives back when it is disposed. -/
inductive Service.Holding where
  | linter
  | command
  | configuration
  deriving DecidableEq, Repr

/-- A language service: its linter and what it holds, last acquired first. -/
structure Service where
  linter : LinterId
  held : List Service.Holding

/-- An editor with everything attached to it. -/
structure Host (σ : Type) where
  workspace : Workspace
  channels : Channels := {}
  commands : Table Handler := .empty
  messages : List Message := []
  log : List Log.Record := []
  collections : Registry Collection := {}
  linters : Registry Linter := {}
  services : Registry Service := {}
  client : σ

/-! ### Operations -/

/-- An operation of a host: it may change the host, and ends with a value or a fault. -/
abbrev HostM (σ α : Type) := ExceptT Fault (StateM (Host σ)) α

/-- The clients of a host: what happens when one is told an event or runs its command. -/
structure Client (σ : Type) where
  notify : (name : String) → Event → HostM σ Unit
  invoke : (number : Nat) → HostM σ Config.Value

namespace HostM

variable {σ α : Type}

/-- The result of a computation that can fail, as an operation. -/
def ofExcept : Except Fault α → HostM σ α
  | .ok a => pure a
  | .error f => throw f

/-- The operation with its fault, if there is one, as a value. -/
def attempt (act : HostM σ α) : HostM σ (Except Fault α) :=
  ExceptT.mk do
    let result ← act.run
    return .ok result

/-- A record for the log. -/
def write (r : Log.Record) : HostM σ Unit :=
  modify fun h => { h with log := h.log ++ [r] }

/-- Releases held things, each taken away by `pop` before it is released, at most `bound` of them.
A fault does not keep the others from being released; the last fault is the answer. -/
def drain {ρ : Type} (pop : HostM σ (Option ρ)) (release : ρ → HostM σ Unit) :
    (bound : Nat) → Option Fault → HostM σ (Option Fault)
  | 0, last => pure last
  | bound + 1, last => do
      match ← pop with
      | none => pure last
      | some thing =>
          match ← attempt (release thing) with
          | .ok _ => drain pop release bound last
          | .error f => drain pop release bound (some f)

@[simp] theorem pure_apply (a : α) (h : Host σ) : (pure a : HostM σ α) h = (.ok a, h) := rfl

@[simp] theorem throw_apply (f : Fault) (h : Host σ) :
    (throw f : HostM σ α) h = (.error f, h) := rfl

@[simp] theorem get_apply (h : Host σ) : (get : HostM σ (Host σ)) h = (.ok h, h) := rfl

@[simp] theorem modify_apply (f : Host σ → Host σ) (h : Host σ) :
    (modify f : HostM σ Unit) h = (.ok (), f h) := rfl

/-- What follows a fault is not carried out, and what came before it stays done. -/
theorem bind_apply {β : Type} (act : HostM σ α) (next : α → HostM σ β) (h : Host σ) :
    (act >>= next) h =
      match act h with
      | (.ok a, h') => next a h'
      | (.error f, h') => (.error f, h') := by
  change (ExceptT.bind act next) h = _
  simp only [ExceptT.bind, ExceptT.mk, ExceptT.bindCont, bind, StateT.bind]
  rcases act h with ⟨_ | _, _⟩ <;> rfl

@[simp] theorem ofExcept_apply (result : Except Fault α) (h : Host σ) :
    (ofExcept result : HostM σ α) h = (result, h) := by
  cases result <;> rfl

@[simp] theorem attempt_apply (act : HostM σ α) (h : Host σ) :
    attempt act h = (.ok (act h).1, (act h).2) := rfl

/-- Fails with the fault, if there is one. -/
def throwIfSome : Option Fault → HostM σ Unit
  | none => pure ()
  | some f => throw f

/-- An operation, after which, if it fails, `undo` is run; a fault of `undo` takes its place. -/
def orUndo (act : HostM σ α) (undo : HostM σ Unit) : HostM σ α := do
  match ← attempt act with
  | .ok a => pure a
  | .error f => do
      undo
      throw f

end HostM

/-! ### Registrations -/

/-- Something that was registered and can be released. -/
inductive Registration where
  | listener (channel : Channel) (listener : Listener)
  | observer (collection : CollectionId) (name : String)
  | command (name : String)
  deriving DecidableEq, Repr

namespace Host

variable {σ : Type}

/-- The host with a registration released. -/
def release (h : Host σ) : Registration → Host σ
  | .listener c l => { h with channels := h.channels.modify c (·.release l) }
  | .observer id name =>
      { h with collections := h.collections.modify id.number fun c =>
          { c with emitter := c.emitter.release name } }
  | .command name => { h with commands := h.commands.erase name }

/-- The collection under a number. -/
def collection? (h : Host σ) (id : CollectionId) : Option Collection :=
  h.collections.get? id.number

/-- The host with a collection replaced. -/
def setCollection (h : Host σ) (id : CollectionId) (c : Collection) : Host σ :=
  { h with collections := h.collections.modify id.number fun _ => c }

end Host

namespace HostM

variable {σ : Type}

/-- Subscribes a listener on a channel. -/
def subscribe (c : Channel) (l : Listener) : HostM σ (Subscription Registration) := do
  modify fun h => { h with channels := h.channels.modify c (·.subscribe l) }
  return ⟨some (.listener c l)⟩

/-- Subscribes a client to the changes of a collection. -/
def observe (id : CollectionId) (name : String) : HostM σ (Subscription Registration) := do
  modify fun h =>
    { h with collections := h.collections.modify id.number fun c =>
        { c with emitter := c.emitter.subscribe name } }
  return ⟨some (.observer id name)⟩

/-- Registers a command under a name that is not taken. -/
def registerCommand (name : String) (handler : Handler) : HostM σ (Subscription Registration) := do
  if (← get).commands.contains name then throw (.commandTaken name)
  modify fun h => { h with commands := h.commands.insert name handler }
  return ⟨some (.command name)⟩

/-- Disposes a handle: what it stands for is released, the first time. -/
def dispose (s : Subscription Registration) : HostM σ Unit :=
  match s.registration with
  | some r => modify fun h => h.release r
  | none => pure ()

/-- Shows the user something of interest. -/
def showInformation (text : String) : HostM σ Unit := do
  write (.informed text)
  modify fun h => { h with messages := h.messages ++ [⟨.information, text⟩] }

/-- Shows the user a warning. -/
def showWarning (text : String) : HostM σ Unit := do
  write (.warned text)
  modify fun h => { h with messages := h.messages ++ [⟨.warning, text⟩] }

end HostM

end Edl
