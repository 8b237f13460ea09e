/-
Flat configurations and the settings that are read from them.

A configuration that was flattened holds no maps, and so of all the ways in which settings can be
spelled only one is left: each switch stands under its full dotted key.  What is announced after an
update is decided by a loose equality of values, under which a missing value is null and numbers
compare across their kinds.  On the two keys that the settings are read from, both sides of an
accepted update are null or truth values, where that equality is exact; so an update that is not
announced to the section `edl` leaves the settings as they were.

Main definitions:

* `Edl.Config.Flat` — a configuration without maps;
* `Edl.Config.Hereditary` — properties of values that pass from the leaves up;
* `Edl.Workspace.Readable` — a workspace whose configuration gives settings.

Main results:

* `Edl.Config.flat_flatten`, `Edl.Config.flat_override` — flattening gives a flat configuration,
  and updating keeps it flat;
* `Edl.Config.lookup_edlSection` — each switch is read under its full key;
* `Edl.Workspace.settings_updateConfiguration` — **no change of the settings goes unannounced**.
-/

import Edl.Proofs.Table
import Edl.Workspace

set_option relaxedAutoImplicit false
set_option autoImplicit false

namespace Edl.Config

/-! ### Flat configurations -/

/-- A configuration none of whose values is a map. -/
def Flat (t : Table Value) : Prop :=
  ∀ key value, t.find? key = some value → value.isMap = false

/-- A property of values and one of the entries of a map that pass from the leaves up. -/
structure Hereditary (p : Value → Prop) (q : List (String × Value) → Prop) : Prop where
  leaf : ∀ value, value.isMap = false → p value
  map : ∀ entries, q entries → p (.map entries)
  nil : q []
  cons : ∀ key value rest, p value → q rest → q ((key, value) :: rest)

namespace Hereditary

variable {p : Value → Prop} {q : List (String × Value) → Prop}

mutual

theorem of_value (h : Hereditary p q) (value : Value) : p value := by
  match value with
  | .map entries => exact h.map entries (h.of_entries entries)
  | .null | .bool _ | .int _ | .real _ | .text _ | .list _ => exact h.leaf _ rfl

/-- They hold everywhere. -/
theorem of_entries (h : Hereditary p q) (entries : List (String × Value)) : q entries := by
  match entries with
  | [] => exact h.nil
  | (key, value) :: rest => exact h.cons key value rest (h.of_value value) (h.of_entries rest)

end

end Hereditary

theorem Value.mergeInto_of_leaf {value : Value} (h : value.isMap = false) (key : String)
    (flat : Table Value) : value.mergeInto key flat = flat.insert key value := by
  rw [Value.mergeInto]
  rintro entries rfl
  cases h

theorem flat_empty : Flat .empty := by
  intro key value h
  simp at h

theorem flat_insert {t : Table Value} (ht : Flat t) (key : String) {value : Value}
    (hvalue : value.isMap = false) : Flat (t.insert key value) := by
  intro k v h
  rw [Table.find?_insert] at h
  split at h
  · rw [← Option.some.inj h]
    exact hvalue
  · exact ht k v h

theorem flat_foldl_insert (entries : List (String × Value)) (t : Table Value) (ht : Flat t)
    (hentries : ∀ entry ∈ entries, entry.2.isMap = false) :
    Flat (entries.foldl (fun t entry => t.insert entry.1 entry.2) t) := by
  induction entries generalizing t with
  | nil => exact ht
  | cons entry rest ih =>
      refine ih _ (flat_insert ht entry.1 (hentries entry (List.mem_cons_self ..))) ?_
      intro other hother
      exact hentries other (List.mem_cons_of_mem _ hother)

/-- Updating a flat configuration with a flat one gives a flat one. -/
theorem flat_override {t u : Table Value} (ht : Flat t) (hu : Flat u) : Flat (t.override u) := by
  refine flat_foldl_insert _ _ ht ?_
  rintro ⟨key, value⟩ hmem
  exact hu key value (Table.find?_eq_some_iff.2 hmem)

/-- Writing into a flat configuration keeps it flat. -/
theorem hereditary_flat :
    Hereditary (fun value => ∀ key flat, Flat flat → Flat (value.mergeInto key flat))
      (fun entries => ∀ stem flat, Flat flat → Flat (mergeAll stem flat entries)) where
  leaf := by
    intro value hleaf key flat hflat
    rw [Value.mergeInto_of_leaf hleaf]
    exact flat_insert hflat key hleaf
  map := by
    intro entries ih key flat hflat
    rw [Value.mergeInto]
    exact flat_override hflat (ih _ _ flat_empty)
  nil := by
    intro stem flat hflat
    exact hflat
  cons := by
    intro key value rest hvalue hrest stem flat hflat
    rw [mergeAll]
    exact hrest _ _ (hvalue _ _ hflat)

/-- Flattening leaves no map. -/
theorem flat_flatten (entries : List (String × Value)) : Flat (flatten entries) :=
  hereditary_flat.of_entries entries "" .empty flat_empty

/-! ### The settings of a flat configuration -/

/-- The key of a switch in a flat configuration. -/
def Switch.fullKey (s : Switch) : String :=
  "edl." ++ s.key

/-- The entries of the section are those whose key continues its name and a dot. -/
theorem lookup_edlSection (entries : List (String × Value)) (key : String) :
    (edlSection entries).lookup key = entries.lookup ("edl." ++ key) := by
  induction entries with
  | nil => rfl
  | cons entry rest ih =>
      obtain ⟨name, value⟩ := entry
      rw [edlSection, List.filterMap_cons]
      split
      · -- the key of the entry does not begin with the section's name
        next h =>
          have hne : ("edl." ++ key == name) = false := by
            rw [beq_eq_false_iff_ne]
            rintro rfl
            simp at h
          rw [List.lookup_cons, hne]
          exact ih
      · next pair h =>
          dsimp only at h
          split at h
          · next tail hname =>
              have hname' : name = "edl." ++ String.ofList tail := by
                rw [← String.toList_inj]
                simpa using hname
              obtain rfl := Option.some.inj h
              rw [List.lookup_cons, List.lookup_cons]
              by_cases hkey : key = String.ofList tail
              · simp [hkey, hname']
              · have h₁ : (key == String.ofList tail) = false := by simpa using hkey
                have h₂ : ("edl." ++ key == name) = false := by
                  rw [beq_eq_false_iff_ne, hname', Ne, String.append_right_inj]
                  exact hkey
                simp only [h₁, h₂]
                exact ih
          · simp at h

/-- What a value says about a switch: on if it is null, and nothing if it is no truth value. -/
def Switch.position (s : Switch) : Value → Except Fault Bool
  | .null => .ok true
  | .bool b => .ok b
  | value => .error (.settingNotBool s.key value)

/-- In a flat configuration a switch is read under its full key, a missing value being null. -/
theorem read_edlSection {t : Table Value} (ht : Flat t) (s : Switch) :
    s.read (Settings.within (edlSection t.entries)) =
      s.position ((t.find? s.fullKey).getD .null) := by
  have hvalue : ∀ key value, (edlSection t.entries).lookup key = some value →
      value.isMap = false := by
    intro key value h
    rw [lookup_edlSection] at h
    exact ht _ _ h
  -- the section holds no section of its own
  have hwithin : Settings.within (edlSection t.entries) = edlSection t.entries := by
    unfold Settings.within
    split
    · next inner h => exact absurd (hvalue _ _ h) (by simp [Value.isMap])
    · rfl
  -- and no group in which the switch could be found
  have hgroup : lookupPath [s.group, "enabled"] (.map (edlSection t.entries)) = none := by
    rw [lookupPath]
    split
    · next value h =>
        have hmap := hvalue _ _ h
        cases value with
        | map entries => simp [Value.isMap] at hmap
        | null | bool | int | real | text | list => rfl
    · rfl
  have hlookup : s.lookup (edlSection t.entries) = t.find? s.fullKey := by
    have hkey : t.entries.lookup ("edl." ++ s.key) = t.find? s.fullKey := rfl
    unfold Switch.lookup
    rw [hgroup, lookup_edlSection, hkey]
    cases t.find? s.fullKey <;> rfl
  rw [hwithin]
  unfold Switch.read
  rw [hlookup]
  cases h : t.find? s.fullKey with
  | none => rfl
  | some value => cases value <;> rfl

/-- The settings of a flat configuration, switch by switch. -/
theorem settings_of_flat {t : Table Value} (ht : Flat t) :
    settings t = (do
      let linting ← Switch.linting.position ((t.find? Switch.linting.fullKey).getD .null)
      let intellisense ←
        Switch.intellisense.position ((t.find? Switch.intellisense.fullKey).getD .null)
      return { linting, intellisense }) := by
  rw [settings, Settings.read, read_edlSection ht, read_edlSection ht]

/-! ### What an update announces -/

/-- On values that a switch can have, the loose equality is equality. -/
theorem eq_of_same {s : Switch} {a b : Value} {x y : Bool} (ha : s.position a = .ok x)
    (hb : s.position b = .ok y) (h : a.same b = true) : a = b := by
  cases a with
  | null =>
      cases b with
      | null => rfl
      | bool b => cases b <;> exact absurd h (by decide)
      | int | real | text | list | map => simp [Switch.position] at hb
  | bool a =>
      cases b with
      | null => cases a <;> exact absurd h (by decide)
      | bool b =>
          cases a <;> cases b
          · rfl
          · exact absurd h (by decide +kernel)
          · exact absurd h (by decide +kernel)
          · rfl
      | int | real | text | list | map => simp [Switch.position] at hb
  | int | real | text | list | map => simp [Switch.position] at ha

/-- An update that does not concern the section leaves each switch where it was. -/
theorem getD_override_of_not_affects {before updates : Table Value} {s : Switch} {x y : Bool}
    (hbefore : s.position ((before.find? s.fullKey).getD .null) = .ok x)
    (hafter : s.position (((before.override updates).find? s.fullKey).getD .null) = .ok y)
    (h : affects (changedKeys before updates) "edl" = false) :
    ((before.override updates).find? s.fullKey).getD .null =
      (before.find? s.fullKey).getD .null := by
  rw [Table.find?_override] at hafter ⊢
  cases hupdate : updates.find? s.fullKey with
  | none => rfl
  | some value =>
      rw [hupdate] at hafter
      -- the key was updated but not announced, so the values are the same
      have hsame : ((before.find? s.fullKey).getD .null).same value = true := by
        refine Decidable.byContradiction fun hdiff => ?_
        have hkey : s.fullKey ∈ changedKeys before updates := by
          refine List.mem_map.2 ⟨(s.fullKey, value), ?_, rfl⟩
          refine List.mem_filter.2 ⟨Table.find?_eq_some_iff.1 hupdate, ?_⟩
          simpa using hdiff
        have hin : inSection "edl" s.fullKey = true := by cases s <;> decide
        have hout := List.any_eq_false.1 h _ hkey
        exact hout hin
      exact (eq_of_same hbefore hafter hsame).symm

end Edl.Config

namespace Edl.Workspace

/-- The configuration can be read as settings. -/
def Readable (w : Workspace) : Prop :=
  ∃ settings, w.settings = .ok settings

/-- What an accepted update does: it can be read, and announces the keys whose value changed. -/
theorem updateConfiguration_eq_ok {w w' : Workspace} {entries : List (String × Config.Value)}
    {keys : List String} (h : w.updateConfiguration entries = .ok (w', keys)) :
    w' = { w with configuration := w.configuration.override (Config.flatten entries) } ∧
      keys = Config.changedKeys w.configuration (Config.flatten entries) ∧ w'.Readable := by
  unfold updateConfiguration at h
  cases hsettings : Config.settings (w.configuration.override (Config.flatten entries)) with
  | error f => simp [hsettings, bind, Except.bind] at h
  | ok settings =>
      simp only [hsettings, bind, Except.bind, pure, Except.pure, Except.ok.injEq,
        Prod.mk.injEq] at h
      obtain ⟨rfl, rfl⟩ := h
      exact ⟨rfl, rfl, settings, hsettings⟩

/-- Each switch of a flat configuration that can be read has a position. -/
theorem Readable.position {w : Workspace} (hflat : Config.Flat w.configuration)
    (hread : w.Readable) (s : Config.Switch) :
    ∃ x, s.position ((w.configuration.find? s.fullKey).getD .null) = .ok x := by
  obtain ⟨settings, h⟩ := hread
  rw [Workspace.settings, Config.settings_of_flat hflat] at h
  cases hlinting : Config.Switch.linting.position
      ((w.configuration.find? Config.Switch.linting.fullKey).getD .null) with
  | error f => simp [hlinting, bind, Except.bind] at h
  | ok linting =>
      cases hintellisense : Config.Switch.intellisense.position
          ((w.configuration.find? Config.Switch.intellisense.fullKey).getD .null) with
      | error f => simp [hlinting, hintellisense, bind, Except.bind] at h
      | ok intellisense =>
          cases s with
          | linting => exact ⟨linting, hlinting⟩
          | intellisense => exact ⟨intellisense, hintellisense⟩

/-- **No change of the settings goes unannounced**: an accepted update after which the settings
differ announces a key of the section `edl`. -/
theorem settings_updateConfiguration {w w' : Workspace} {entries : List (String × Config.Value)}
    {keys : List String} (hflat : Config.Flat w.configuration) (hread : w.Readable)
    (h : w.updateConfiguration entries = .ok (w', keys))
    (hkeys : Config.affects keys "edl" = false) : w'.settings = w.settings := by
  obtain ⟨rfl, rfl, hread'⟩ := updateConfiguration_eq_ok h
  have hflat' := Config.flat_override hflat (Config.flat_flatten entries)
  have hswitch : ∀ s : Config.Switch,
      ((w.configuration.override (Config.flatten entries)).find? s.fullKey).getD .null =
        (w.configuration.find? s.fullKey).getD .null := by
    intro s
    obtain ⟨x, hx⟩ := hread.position hflat s
    obtain ⟨y, hy⟩ := hread'.position hflat' s
    exact Config.getD_override_of_not_affects hx hy hkeys
  rw [Workspace.settings, Workspace.settings, Config.settings_of_flat hflat,
    Config.settings_of_flat hflat', hswitch, hswitch]

end Edl.Workspace
