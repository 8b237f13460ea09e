/-
Flattening keeps the last leaf of every dotted path.

Keys may hold dots themselves or be empty, so leaves on different branches of a configuration can
come to the same dotted key.  Flattening goes map by map, makes each inner map flat by itself and
writes the result over what was gathered so far; so one leaf can override another inside an inner
map, or later, when maps are brought together.  It could as well list all leaves depth first and
write them one after another.  The outcome is the same: of all leaves with one dotted key the last
in depth-first order counts, at the place of the first.  A flat configuration is its own flattening,
and so an update and its flattened form do the same to a host.

Main definitions:

* `Edl.Config.dotted` — the keys on a path, joined by dots;
* `Edl.Config.branches` — the leaves of a configuration with the paths to them, depth first.

Main results:

* `Edl.Config.flatten_eq_ofList` — going map by map writes the leaves under their dotted paths;
* `Edl.Config.keys_flatten`, `Edl.Config.find?_flatten_eq_some_iff` — first place, last leaf;
* `Edl.Config.flatten_flatten` — a flat configuration is its own flattening;
* `Edl.Config.flattening_keeps_the_last_leaf` — **all of this, and what it means for updates**.
-/

import Edl.Host.Request
import Edl.Proofs.Configuration
import Edl.Proofs.Overlay

set_option relaxedAutoImplicit false
set_option autoImplicit false

namespace Edl.Config

/-! ### Paths -/

/-- The keys on a path, joined by dots. -/
def dotted (path : List String) : String :=
  ".".intercalate path

@[simp] theorem dotted_singleton (key : String) : dotted [key] = key :=
  String.intercalate_singleton

theorem dotted_cons {key : String} {path : List String} (h : path ≠ []) :
    dotted (key :: path) = key ++ "." ++ dotted path :=
  String.intercalate_cons_of_ne_nil h

/-- What stands in front of the first key stands in front of them all. -/
theorem dotted_append_cons (stem key : String) (path : List String) :
    dotted ((stem ++ key) :: path) = stem ++ dotted (key :: path) := by
  by_cases h : path = []
  · rw [h, dotted_singleton, dotted_singleton]
  · rw [dotted_cons h, dotted_cons h, String.append_assoc, String.append_assoc, String.append_assoc]

mutual

/-- The leaves of a value with the paths to them: a value that is no map is a leaf. -/
def Value.branches : Value → List (List String × Value)
  | .map entries => branches entries
  | value => [([], value)]

/-- The leaves of a configuration in depth-first order, with the paths to them. -/
def branches : List (String × Value) → List (List String × Value)
  | [] => []
  | (key, value) :: rest => (value.branches.map fun b => (key :: b.1, b.2)) ++ branches rest

end

theorem Value.branches_of_leaf {value : Value} (h : value.isMap = false) :
    value.branches = [([], value)] := by
  rw [Value.branches]
  rintro entries rfl
  cases h

/-- A path into a configuration starts with a key of it. -/
theorem mem_branches_iff {entries : List (String × Value)} {path : List String} {leaf : Value} :
    (path, leaf) ∈ branches entries ↔
      ∃ key value rest, path = key :: rest ∧ (key, value) ∈ entries ∧
        (rest, leaf) ∈ value.branches := by
  induction entries with
  | nil => simp [branches]
  | cons entry entries ih =>
      obtain ⟨name, first⟩ := entry
      rw [branches, List.mem_append, List.mem_map, ih]
      constructor
      · rintro (⟨⟨rest, leaf⟩, hbranch, heq⟩ | ⟨key, value, rest, rfl, hmem, hbranch⟩)
        · obtain ⟨rfl, rfl⟩ := Prod.mk.inj heq
          exact ⟨name, first, rest, rfl, List.mem_cons_self .., hbranch⟩
        · exact ⟨key, value, rest, rfl, List.mem_cons_of_mem _ hmem, hbranch⟩
      · rintro ⟨key, value, rest, rfl, hmem, hbranch⟩
        rcases List.mem_cons.1 hmem with heq | hmem
        · obtain ⟨rfl, rfl⟩ := Prod.mk.inj heq
          exact .inl ⟨(rest, leaf), hbranch, rfl⟩
        · exact .inr ⟨key, value, rest, rfl, hmem, hbranch⟩

/-! ### Flattening leaf by leaf -/

/-- Writing a value, or the entries of a map, is writing the leaves, under the dotted paths that
continue the key. -/
theorem hereditary_writeAll :
    Hereditary
      (fun value => ∀ key flat, value.mergeInto key flat =
        flat.writeAll (value.branches.map fun b => (dotted (key :: b.1), b.2)))
      (fun entries => ∀ stem flat, mergeAll stem flat entries =
        flat.writeAll ((branches entries).map fun b => (stem ++ dotted b.1, b.2))) where
  leaf := by
    intro value hleaf key flat
    rw [Value.mergeInto_of_leaf hleaf, Value.branches_of_leaf hleaf, List.map_singleton,
      dotted_singleton]
    rfl
  map := by
    intro entries ih key flat
    rw [Value.mergeInto, ih, Value.branches]
    refine (Table.override_ofList flat _).trans (congrArg flat.writeAll ?_)
    refine List.map_congr_left ?_
    rintro ⟨path, leaf⟩ hmem
    -- a path into a map is not empty, so a dot follows the key
    obtain ⟨first, value, rest, rfl, -, -⟩ := mem_branches_iff.1 hmem
    rw [dotted_cons (List.cons_ne_nil first rest)]
  nil := by
    intro stem flat
    rfl
  cons := by
    intro key value rest hvalue hrest stem flat
    rw [mergeAll, branches, List.map_append, List.map_map, Table.writeAll_append, hrest, hvalue]
    simp only [Function.comp_def, dotted_append_cons]

theorem flatten_eq_ofList (entries : List (String × Value)) :
    flatten entries = Table.ofList ((branches entries).map fun b => (dotted b.1, b.2)) := by
  rw [flatten, hereditary_writeAll.of_entries]
  simp only [String.empty_append]
  rfl

/-- The keys are the dotted paths, each at the place of its first leaf. -/
theorem keys_flatten (entries : List (String × Value)) :
    (flatten entries).keys = ((branches entries).map fun b => dotted b.1).eraseDups := by
  rw [flatten_eq_ofList, Table.keys_ofList, List.map_map]
  rfl

/-- The value under a key is the last leaf with that dotted path. -/
theorem find?_flatten_eq_some_iff {entries : List (String × Value)} {key : String}
    {value : Value} :
    (flatten entries).find? key = some value ↔
      ∃ before path after, branches entries = before ++ (path, value) :: after ∧
        dotted path = key ∧ ∀ b ∈ after, dotted b.1 ≠ key := by
  rw [flatten_eq_ofList, Table.find?_ofList_eq_some_iff]
  constructor
  · rintro ⟨before, after, hmap, hafter⟩
    obtain ⟨before', rest, hbranches, -, hrest⟩ := List.map_eq_append_iff.1 hmap
    obtain ⟨⟨path, leaf⟩, after', rfl, heq, rfl⟩ := List.map_eq_cons_iff.1 hrest
    obtain ⟨hpath, rfl⟩ := Prod.mk.inj heq
    exact ⟨before', path, after', hbranches, hpath, fun b hb =>
      hafter _ (List.mem_map.2 ⟨b, hb, rfl⟩)⟩
  · rintro ⟨before, path, after, hbranches, rfl, hafter⟩
    refine ⟨before.map fun b => (dotted b.1, b.2), after.map fun b => (dotted b.1, b.2), ?_, ?_⟩
    · rw [hbranches, List.map_append, List.map_cons]
    · intro entry hentry
      obtain ⟨b, hb, rfl⟩ := List.mem_map.1 hentry
      exact hafter b hb

/-- What is found under a key is a leaf with that dotted path. -/
theorem exists_branch_of_find?_flatten {entries : List (String × Value)} {key : String}
    {value : Value} (h : (flatten entries).find? key = some value) :
    ∃ path, (path, value) ∈ branches entries ∧ dotted path = key := by
  obtain ⟨before, path, after, hbranches, hpath, -⟩ := find?_flatten_eq_some_iff.1 h
  refine ⟨path, ?_, hpath⟩
  rw [hbranches]
  exact List.mem_append_right before (List.mem_cons_self ..)

/-- Under the dotted path of a leaf something is found. -/
theorem exists_find?_flatten_of_branch {entries : List (String × Value)} {path : List String}
    {leaf : Value} (h : (path, leaf) ∈ branches entries) :
    ∃ value, (flatten entries).find? (dotted path) = some value := by
  rw [← Table.mem_keys_iff, keys_flatten, List.mem_eraseDups]
  exact List.mem_map.2 ⟨(path, leaf), h, rfl⟩

/-! ### Flat configurations -/

/-- In a configuration without maps every entry is a leaf. -/
theorem branches_of_leaves {entries : List (String × Value)}
    (h : ∀ entry ∈ entries, entry.2.isMap = false) :
    branches entries = entries.map fun entry => ([entry.1], entry.2) := by
  induction entries with
  | nil => rfl
  | cons entry rest ih =>
      obtain ⟨key, value⟩ := entry
      obtain ⟨hvalue, hrest⟩ := List.forall_mem_cons.1 h
      rw [branches, Value.branches_of_leaf hvalue, ih hrest, List.map_singleton, List.map_cons,
        List.singleton_append]

theorem flatten_entries_of_flat {t : Table Value} (ht : Flat t) : flatten t.entries = t := by
  have hleaves : ∀ entry ∈ t.entries, entry.2.isMap = false := by
    rintro ⟨key, value⟩ hmem
    exact ht key value (Table.find?_eq_some_iff.2 hmem)
  rw [flatten_eq_ofList, branches_of_leaves hleaves, List.map_map]
  simp only [Function.comp_def, dotted_singleton, List.map_id', Table.ofList_entries]

/-- A flat configuration is its own flattening. -/
theorem flatten_flatten (entries : List (String × Value)) :
    flatten (flatten entries).entries = flatten entries :=
  flatten_entries_of_flat (flat_flatten entries)

/-- An update does the same to a workspace when it is flattened first. -/
theorem updateConfiguration_flatten (w : Workspace) (entries : List (String × Value)) :
    w.updateConfiguration (flatten entries).entries = w.updateConfiguration entries := by
  rw [Workspace.updateConfiguration, Workspace.updateConfiguration, flatten_flatten]

/-- **Flattening keeps the last leaf of every dotted path.**  It leaves no map; its keys are the
dotted paths of the leaves in the order of their first leaves, depth first; and under each key it
has the last leaf with that path.  Making inner maps flat by themselves and writing them over the
rest is thus the same as writing all leaves, depth first, under their dotted paths.  What is flat is
its own flattening; and an update and its flattened form are
refused by a workspace for the same fault, or lead to the same workspace and announce the same
keys, so that on a host they come to the same whatever its listeners do. -/
theorem flattening_keeps_the_last_leaf (entries : List (String × Value)) :
    (∀ key value, (flatten entries).find? key = some value → value.isMap = false) ∧
    (flatten entries).keys = ((branches entries).map fun b => dotted b.1).eraseDups ∧
    (∀ key value, (flatten entries).find? key = some value ↔
      ∃ before path after, branches entries = before ++ (path, value) :: after ∧
        dotted path = key ∧ ∀ b ∈ after, dotted b.1 ≠ key) ∧
    flatten entries = Table.ofList ((branches entries).map fun b => (dotted b.1, b.2)) ∧
    flatten (flatten entries).entries = flatten entries ∧
    (∀ w : Workspace,
      w.updateConfiguration (flatten entries).entries = w.updateConfiguration entries) ∧
    ∀ (σ : Type) (client : Client σ) (h : Host σ),
      HostM.updateConfiguration client (flatten entries).entries h =
        HostM.updateConfiguration client entries h := by
  refine ⟨flat_flatten entries, keys_flatten entries, fun key value => find?_flatten_eq_some_iff,
    flatten_eq_ofList entries, flatten_flatten entries,
    fun w => updateConfiguration_flatten w entries, ?_⟩
  intro σ client h
  simp only [HostM.updateConfiguration, updateConfiguration_flatten]

-- three leaves come to one key, and a map without leaves to none
example : (flatten [("a", .map [("b.c", .int 1), ("", .map [])]), ("d", .null),
    ("a.b", .map [("c", .int 2)]), ("a", .map [("b", .map [("c", .int 3)])])]).entries =
      [("a.b.c", .int 3), ("d", .null)] := by
  rfl

end Edl.Config
