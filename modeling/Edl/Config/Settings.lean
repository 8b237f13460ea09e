/-
The settings of the language tools.

Two switches can be set in a configuration, under `linting.enabled` and `intellisense.enabled`.
Each may be spelled as one dotted key or as nested maps; the dotted key wins.  The settings may
stand in a section `edl` of the configuration.  A switch that is missing or null keeps its default,
which is on, and a value of any other kind is refused.

Main definitions:

* `Edl.Config.Settings` — the two switches;
* `Edl.Config.Settings.read` — the settings that a configuration gives;
* `Edl.Config.Settings.entries` — the configuration that gives the settings.
-/

import Edl.Fault

set_option relaxedAutoImplicit false
set_option autoImplicit false

namespace Edl.Config

/-- The switches of the language tools. -/
structure Settings where
  linting : Bool := true
  intellisense : Bool := true
  deriving DecidableEq, Repr

/-- A place in a configuration: the keys of nested maps, outermost first. -/
def lookupPath : (path : List String) → Value → Option Value
  | [], value => some value
  | key :: path, .map entries =>
      match entries.lookup key with
      | some value => lookupPath path value
      | none => none
  | _ :: _, _ => none

/-- A switch of the settings: the group it belongs to. -/
inductive Switch where
  | linting
  | intellisense
  deriving DecidableEq

namespace Switch

/-- The group of a switch. -/
def group : Switch → String
  | linting => "linting"
  | intellisense => "intellisense"

/-- The dotted key of a switch. -/
def key : Switch → String
  | linting => "linting.enabled"
  | intellisense => "intellisense.enabled"

/-- What a configuration says about a switch: under its dotted key, or else in its group. -/
def lookup (s : Switch) (entries : List (String × Value)) : Option Value :=
  match entries.lookup s.key with
  | some value => some value
  | none => lookupPath [s.group, "enabled"] (.map entries)

/-- The position of a switch; nothing and null mean on. -/
def read (s : Switch) (entries : List (String × Value)) : Except Fault Bool :=
  match s.lookup entries with
  | none => .ok true
  | some .null => .ok true
  | some (.bool b) => .ok b
  | some value => .error (.settingNotBool s.key value)

end Switch

namespace Settings

/-- The part of a configuration that holds the settings: its section `edl` if that is a map. -/
def within (entries : List (String × Value)) : List (String × Value) :=
  match entries.lookup "edl" with
  | some (.map inner) => inner
  | _ => entries

/-- The settings that a configuration gives. -/
def read (entries : List (String × Value)) : Except Fault Settings := do
  let entries := within entries
  let linting ← Switch.linting.read entries
  let intellisense ← Switch.intellisense.read entries
  return { linting, intellisense }

/-- The settings as a configuration of dotted keys. -/
def entries (s : Settings) : List (String × Value) :=
  [(Switch.linting.key, .bool s.linting), (Switch.intellisense.key, .bool s.intellisense)]

/-- Reading what was written gives the settings back. -/
theorem read_entries (s : Settings) : read s.entries = .ok s := by
  rcases s with ⟨linting, intellisense⟩
  rfl

end Settings

end Edl.Config
