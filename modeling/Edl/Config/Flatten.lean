/-
Flat configurations.

The host keeps a configuration flat, under dotted keys.  Flattening goes map by map: an inner map is
made flat by itself, its keys opened by the key of the map and a dot, and then written over what was
gathered so far.  Of two values that come to the same dotted key the later one counts, at the place
of the earlier.  A map inside a list is part of that list, and a map without leaves vanishes.

Main definitions:

* `Edl.Config.Value.mergeInto`, `Edl.Config.mergeAll` — a value, or the entries of a map, written
  into a flat configuration;
* `Edl.Config.flatten` — the flat configuration;
* `Edl.Config.settings` — the settings that a flat configuration gives;
* `Edl.Config.changedKeys` — the keys whose value an update changes.
-/

import Edl.Config.Settings
import Edl.Table

set_option relaxedAutoImplicit false
set_option autoImplicit false

namespace Edl.Config

mutual

/-- A value written under a key into a flat configuration; a map is made flat by itself first, and
then written over the rest. -/
def Value.mergeInto (key : String) (flat : Table Value) : Value → Table Value
  | .map entries => flat.override (mergeAll (key ++ ".") .empty entries)
  | value => flat.insert key value

/-- The entries of a map written into a flat configuration one after another, their keys opened by
`stem`. -/
def mergeAll (stem : String) (flat : Table Value) : List (String × Value) → Table Value
  | [] => flat
  | (key, value) :: rest => mergeAll stem (value.mergeInto (stem ++ key) flat) rest

end

/-- The configuration under dotted keys. -/
def flatten (entries : List (String × Value)) : Table Value :=
  mergeAll "" .empty entries

/-- The entries of the section `edl` of a flat configuration, under what follows its name. -/
def edlSection (flat : List (String × Value)) : List (String × Value) :=
  flat.filterMap fun (key, value) =>
    match key.toList with
    | 'e' :: 'd' :: 'l' :: '.' :: rest => some (String.ofList rest, value)
    | _ => none

/-- The settings that a flat configuration gives. -/
def settings (flat : Table Value) : Except Fault Settings :=
  Settings.read (edlSection flat.entries)

/-- The updated keys whose value differs from the one before, a missing value being null. -/
def changedKeys (before updates : Table Value) : List String :=
  (updates.entries.filter fun (key, value) =>
    !((before.find? key).getD .null).same value).map Prod.fst

/-- Whether a key lies in a section: it is the section, or it continues the section and a dot. -/
def inSection (name key : String) : Bool :=
  key == name || (name.toList ++ ['.']).isPrefixOf key.toList

/-- Whether some of the keys lie in a section. -/
def affects (keys : List String) (name : String) : Bool :=
  keys.any (inSection name)

end Edl.Config
