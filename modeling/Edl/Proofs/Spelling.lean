/-
However a switch is spelled, it is read alike.

A configuration can be read in two ways.  The settings can be looked up in it as it is, under
dotted keys or in nested maps; or a workspace makes it flat, picks the keys of the section `edl`
and looks the settings up in what is left.  The two agree on every mapping in which each switch is
spelled in at most one way and its value is not a map itself.  The reason is that few paths can
come to the dotted key of a switch.  That key has one dot, and none of the keys on a path loses its
own dots by being joined to others; so the path is the dotted key alone, or the group and then
`enabled`, and these are the places where the other reader looks.  Nothing else in the mapping is
seen by either.

Main definitions:

* `Edl.Config.Mapping` — no key stands twice in one map;
* `Edl.Config.Switch.Says` — what a mapping says about a switch, under either spelling;
* `Edl.Config.Switch.Plain` — a switch is spelled at most once, and not by a map.

Main results:

* `Edl.Config.Switch.dotted_eq_key_iff` — the paths that come to the key of a switch;
* `Edl.Config.Switch.Plain.find?_flatten_section` — both readers see the same values;
* `Edl.Config.settings_readers_agree` — **both readers give the same settings, or the same fault**.
-/

import Edl.Proofs.Announcement
import Edl.Proofs.Flattening
import Edl.Proofs.Lines

set_option relaxedAutoImplicit false
set_option autoImplicit false

namespace Edl.Config

open Text

/-! ### Mappings and switches -/

/-- No two entries have the same key, here and in the maps below. -/
inductive Mapping : List (String × Value) → Prop
  | intro {m : List (String × Value)} : (m.map Prod.fst).Nodup →
      (∀ key inner, (key, .map inner) ∈ m → Mapping inner) → Mapping m

namespace Switch

variable (s : Switch) (m : List (String × Value))

/-- The switch is spelled by its dotted key. -/
def Dotted (value : Value) : Prop :=
  m.lookup s.key = some value

/-- The switch is spelled by a map under the name of its group. -/
def Nested (value : Value) : Prop :=
  ∃ inner, m.lookup s.group = some (.map inner) ∧ inner.lookup "enabled" = some value

/-- The mapping gives the switch a value, in one of the two ways. -/
def Says (value : Value) : Prop :=
  s.Dotted m value ∨ s.Nested m value

/-- The switch is not spelled in both ways, and its value is not a map. -/
structure Plain : Prop where
  once : ¬((∃ value, s.Dotted m value) ∧ ∃ value, s.Nested m value)
  leaf : ∀ value, s.Says m value → value.isMap = false

variable {s m} {value value' : Value}

/-- A switch that is spelled in one way has one value. -/
theorem Plain.unique (h : s.Plain m) (hsaid : s.Says m value) (hsaid' : s.Says m value') :
    value = value' := by
  rcases hsaid with hdotted | hnested
  · rcases hsaid' with hdotted' | hnested'
    · exact Option.some.inj (hdotted.symm.trans hdotted')
    · exact absurd ⟨⟨value, hdotted⟩, value', hnested'⟩ h.once
  · rcases hsaid' with hdotted' | hnested'
    · exact absurd ⟨⟨value', hdotted'⟩, value, hnested⟩ h.once
    · obtain ⟨inner, hgroup, hinner⟩ := hnested
      obtain ⟨inner', hgroup', hinner'⟩ := hnested'
      obtain rfl : inner = inner' := by simpa using hgroup.symm.trans hgroup'
      exact Option.some.inj (hinner.symm.trans hinner')

/-! ### Looking a switch up -/

theorem lookupPath_eq_some_iff :
    lookupPath [s.group, "enabled"] (.map m) = some value ↔ s.Nested m value := by
  rw [lookupPath, Nested]
  cases m.lookup s.group with
  | none => simp
  | some group =>
      cases group with
      | map inner =>
          dsimp only
          rw [lookupPath]
          cases henabled : inner.lookup "enabled" with
          | none => simp [henabled]
          | some found => simp [henabled, lookupPath]
      | null | bool | int | real | text | list => simp [lookupPath]

/-- Looking a switch up in a mapping finds what the mapping says about it. -/
theorem Plain.lookup_eq_some_iff (h : s.Plain m) : s.lookup m = some value ↔ s.Says m value := by
  unfold Switch.lookup
  cases hdotted : m.lookup s.key with
  | some found =>
      have hfound : s.Says m found := .inl hdotted
      rw [Option.some_inj]
      constructor
      · rintro rfl
        exact hfound
      · intro hsaid
        exact h.unique hfound hsaid
  | none =>
      dsimp only
      rw [lookupPath_eq_some_iff]
      constructor
      · exact .inr
      · rintro (hkey | hnested)
        · cases hdotted.symm.trans hkey
        · exact hnested

/-- The position of a switch is that of the value that is found, a missing one being null. -/
theorem read_eq_position (s : Switch) (entries : List (String × Value)) :
    s.read entries = s.position ((s.lookup entries).getD .null) := by
  unfold Switch.read
  cases s.lookup entries with
  | none => rfl
  | some value => cases value <;> rfl

end Switch

/-! ### Paths that come to the key of a switch -/

section

variable {path : List String} {a b : List Char}

/-- Joining keys by dots joins their pieces between dots. -/
theorem cutAt_dotted_cons (key : String) (h : path ≠ []) :
    cutAt '.' (dotted (key :: path)).toList =
      cutAt '.' key.toList ++ cutAt '.' (dotted path).toList := by
  have htext : (dotted (key :: path)).toList = key.toList ++ '.' :: (dotted path).toList := by
    rw [dotted_cons h, String.toList_append, String.toList_append, List.append_assoc]
    rfl
  rw [htext, cutAt_append]

/-- A text is determined by its pieces. -/
theorem eq_ofList_of_cutAt {text : String} (h : cutAt '.' text.toList = [a]) :
    text = String.ofList a := by
  have hglue := glueWith_cutAt '.' text.toList
  rw [h] at hglue
  rw [← String.toList_inj, String.toList_ofList]
  exact hglue.symm

/-- A dotted path without dots has one key. -/
theorem path_of_one_piece (hne : path ≠ []) (h : cutAt '.' (dotted path).toList = [a]) :
    path = [String.ofList a] := by
  obtain ⟨key, rest, rfl⟩ := List.exists_cons_of_ne_nil hne
  by_cases hrest : rest = []
  · subst hrest
    rw [dotted_singleton] at h
    rw [eq_ofList_of_cutAt h]
  · -- two keys would give two pieces
    rw [cutAt_dotted_cons key hrest] at h
    obtain ⟨piece, pieces, hkey⟩ := List.exists_cons_of_ne_nil (cutAt_ne_nil '.' key.toList)
    obtain ⟨piece', pieces', hpath⟩ :=
      List.exists_cons_of_ne_nil (cutAt_ne_nil '.' (dotted rest).toList)
    rw [hkey, hpath] at h
    simp at h

/-- A dotted path with one dot has one key, which holds the dot, or two keys. -/
theorem path_of_two_pieces (hne : path ≠ []) (h : cutAt '.' (dotted path).toList = [a, b]) :
    path = [dotted path] ∨ path = [String.ofList a, String.ofList b] := by
  obtain ⟨key, rest, rfl⟩ := List.exists_cons_of_ne_nil hne
  by_cases hrest : rest = []
  · subst hrest
    rw [dotted_singleton]
    exact .inl rfl
  · rw [cutAt_dotted_cons key hrest] at h
    obtain ⟨piece, pieces, hkey⟩ := List.exists_cons_of_ne_nil (cutAt_ne_nil '.' key.toList)
    rw [hkey, List.cons_append] at h
    obtain ⟨rfl, htail⟩ := List.cons.inj h
    -- the first key has one piece, for something is left for the others
    rcases List.append_eq_singleton_iff.1 htail with ⟨rfl, hpath⟩ | ⟨-, hpath⟩
    · rw [eq_ofList_of_cutAt hkey, path_of_one_piece hrest hpath]
      exact .inr rfl
    · exact absurd hpath (cutAt_ne_nil '.' _)

/-- The paths that come to the key of a switch are its two spellings. -/
theorem Switch.dotted_eq_key_iff (s : Switch) (hne : path ≠ []) :
    dotted path = s.key ↔ path = [s.key] ∨ path = [s.group, "enabled"] := by
  constructor
  · intro h
    have hpieces : cutAt '.' (dotted path).toList = [s.group.toList, "enabled".toList] := by
      rw [h]
      cases s <;> rfl
    have hpath := path_of_two_pieces hne hpieces
    rwa [h, String.ofList_toList, String.ofList_toList] at hpath
  · rintro (rfl | rfl)
    · exact dotted_singleton s.key
    · cases s <;> rfl

end

/-! ### Short branches -/

section

variable {m : List (String × Value)} {key inside : String} {leaf value : Value}

theorem Value.nil_mem_branches_iff :
    ([], leaf) ∈ value.branches ↔ value = leaf ∧ leaf.isMap = false := by
  by_cases hleaf : value.isMap = false
  · rw [Value.branches_of_leaf hleaf, List.mem_singleton]
    constructor
    · intro h
      obtain rfl : leaf = value := (Prod.mk.inj h).2
      exact ⟨rfl, hleaf⟩
    · rintro ⟨rfl, -⟩
      rfl
  · refine iff_of_false ?_ ?_
    · intro h
      cases value with
      | map entries =>
          rw [Value.branches] at h
          obtain ⟨_, _, _, hpath, -⟩ := mem_branches_iff.1 h
          cases hpath
      | null | bool | int | real | text | list => exact hleaf rfl
    · rintro ⟨rfl, h⟩
      exact hleaf h

/-- A branch of one key is an entry that is no map. -/
theorem singleton_mem_branches_iff :
    ([key], leaf) ∈ branches m ↔ (key, leaf) ∈ m ∧ leaf.isMap = false := by
  rw [mem_branches_iff]
  constructor
  · rintro ⟨_, _, _, heq, hmem, hbranch⟩
    obtain ⟨rfl, rfl⟩ := List.cons.inj heq
    obtain ⟨rfl, hleaf⟩ := Value.nil_mem_branches_iff.1 hbranch
    exact ⟨hmem, hleaf⟩
  · rintro ⟨hmem, hleaf⟩
    exact ⟨key, leaf, [], rfl, hmem, Value.nil_mem_branches_iff.2 ⟨rfl, hleaf⟩⟩

/-- A branch of two keys is an entry of a map that is an entry. -/
theorem pair_mem_branches_iff :
    ([key, inside], leaf) ∈ branches m ↔
      ∃ inner, (key, .map inner) ∈ m ∧ (inside, leaf) ∈ inner ∧ leaf.isMap = false := by
  rw [mem_branches_iff]
  constructor
  · rintro ⟨_, value, _, heq, hmem, hbranch⟩
    obtain ⟨rfl, rfl⟩ := List.cons.inj heq
    cases value with
    | map inner =>
        rw [Value.branches] at hbranch
        exact ⟨inner, hmem, singleton_mem_branches_iff.1 hbranch⟩
    | null | bool | int | real | text | list =>
        rw [Value.branches_of_leaf rfl, List.mem_singleton] at hbranch
        cases hbranch
  · rintro ⟨inner, hmem, hinner⟩
    refine ⟨key, .map inner, [inside], rfl, hmem, ?_⟩
    rw [Value.branches]
    exact singleton_mem_branches_iff.2 hinner

/-- A mapping says about a switch what it has at the end of a branch that comes to its key. -/
theorem Switch.Plain.says_iff_branch {s : Switch} (hm : Mapping m) (hs : s.Plain m) :
    s.Says m leaf ↔ ∃ path, (path, leaf) ∈ branches m ∧ dotted path = s.key := by
  obtain ⟨hdistinct, hinner⟩ := hm
  constructor
  · intro hsaid
    have hleaf := hs.leaf leaf hsaid
    rcases hsaid with hdotted | ⟨inner, hgroup, henabled⟩
    · have hmem := (Table.lookup_eq_some_iff_mem hdistinct _ _).1 hdotted
      exact ⟨[s.key], singleton_mem_branches_iff.2 ⟨hmem, hleaf⟩, dotted_singleton s.key⟩
    · have hmem := (Table.lookup_eq_some_iff_mem hdistinct _ _).1 hgroup
      obtain ⟨hdistinct', -⟩ := hinner _ _ hmem
      have hmem' := (Table.lookup_eq_some_iff_mem hdistinct' _ _).1 henabled
      exact ⟨[s.group, "enabled"], pair_mem_branches_iff.2 ⟨inner, hmem, hmem', hleaf⟩,
        (s.dotted_eq_key_iff (List.cons_ne_nil _ _)).2 (.inr rfl)⟩
  · rintro ⟨path, hbranch, hpath⟩
    have hne : path ≠ [] := by
      obtain ⟨first, _, rest, rfl, -⟩ := mem_branches_iff.1 hbranch
      exact List.cons_ne_nil first rest
    rcases (s.dotted_eq_key_iff hne).1 hpath with rfl | rfl
    · obtain ⟨hmem, -⟩ := singleton_mem_branches_iff.1 hbranch
      exact .inl ((Table.lookup_eq_some_iff_mem hdistinct _ _).2 hmem)
    · obtain ⟨inner, hmem, hmem', -⟩ := pair_mem_branches_iff.1 hbranch
      obtain ⟨hdistinct', -⟩ := hinner _ _ hmem
      exact .inr ⟨inner, (Table.lookup_eq_some_iff_mem hdistinct _ _).2 hmem,
        (Table.lookup_eq_some_iff_mem hdistinct' _ _).2 hmem'⟩

end

/-! ### The two readers -/

section

variable {m : List (String × Value)}

/-- The branches of a section are those of the mapping in it, one key longer. -/
theorem mem_branches_section_iff {name : String} {path : List String} {leaf : Value} :
    (path, leaf) ∈ branches [(name, .map m)] ↔
      ∃ rest, path = name :: rest ∧ (rest, leaf) ∈ branches m := by
  rw [mem_branches_iff]
  constructor
  · rintro ⟨_, _, rest, rfl, hmem, hbranch⟩
    obtain ⟨rfl, rfl⟩ := Prod.mk.inj (List.mem_singleton.1 hmem)
    rw [Value.branches] at hbranch
    exact ⟨rest, rfl, hbranch⟩
  · rintro ⟨rest, rfl, hbranch⟩
    refine ⟨name, .map m, rest, rfl, List.mem_singleton_self _, ?_⟩
    rw [Value.branches]
    exact hbranch

/-- In the flat form of the section a switch is found with the value that the mapping says. -/
theorem Switch.Plain.find?_flatten_eq_some_iff {s : Switch} (hm : Mapping m) (hs : s.Plain m)
    {value : Value} :
    (flatten [("edl", .map m)]).find? s.fullKey = some value ↔ s.Says m value := by
  have hsound : ∀ v, (flatten [("edl", .map m)]).find? s.fullKey = some v → s.Says m v := by
    intro v hfind
    obtain ⟨path, hbranch, hpath⟩ := exists_branch_of_find?_flatten hfind
    obtain ⟨rest, rfl, hrest⟩ := mem_branches_section_iff.1 hbranch
    obtain ⟨first, _, others, rfl, -⟩ := mem_branches_iff.1 hrest
    rw [dotted_cons (List.cons_ne_nil first others)] at hpath
    have hkey : dotted (first :: others) = s.key := (String.append_right_inj "edl.").1 hpath
    exact (hs.says_iff_branch hm).2 ⟨_, hrest, hkey⟩
  constructor
  · exact hsound value
  · intro hsaid
    obtain ⟨path, hbranch, hpath⟩ := (hs.says_iff_branch hm).1 hsaid
    obtain ⟨first, _, others, rfl, -⟩ := mem_branches_iff.1 hbranch
    obtain ⟨v, hfind⟩ :=
      exists_find?_flatten_of_branch (mem_branches_section_iff.2 ⟨_, rfl, hbranch⟩)
    rw [dotted_cons (List.cons_ne_nil first others), hpath] at hfind
    -- whatever leaf comes last, it has this value
    rw [hs.unique hsaid (hsound v hfind)]
    exact hfind

/-- Both readers see the same value of a switch. -/
theorem Switch.Plain.find?_flatten_section {s : Switch} (hm : Mapping m) (hs : s.Plain m) :
    (flatten [("edl", .map m)]).find? s.fullKey = s.lookup m := by
  refine Option.ext ?_
  intro value
  rw [hs.find?_flatten_eq_some_iff hm, hs.lookup_eq_some_iff]

/-- Reading a section as it is gives what reading its flat form gives. -/
theorem read_section (hm : Mapping m) (hplain : ∀ s : Switch, s.Plain m) :
    Settings.read [("edl", .map m)] = settings (flatten [("edl", .map m)]) := by
  have hwithin : Settings.within [("edl", .map m)] = m := rfl
  rw [settings_of_flat (flat_flatten _), Settings.read, hwithin, Switch.read_eq_position,
    Switch.read_eq_position, (hplain .linting).find?_flatten_section hm,
    (hplain .intellisense).find?_flatten_section hm]

/-- The settings of a workspace, from the mapping it was made with. -/
theorem create_bind_settings (entries : List (String × Value)) :
    (Workspace.create entries >>= Workspace.settings) = settings (flatten entries) := by
  unfold Workspace.create
  cases hsettings : settings (flatten entries) with
  | error f => simp [hsettings, bind, Except.bind]
  | ok given =>
      simp only [hsettings, bind, Except.bind, pure, Except.pure]
      exact hsettings

/-- A section cannot be read because of a switch with a value that is no position. -/
theorem settings_section_eq_error (hm : Mapping m) (hplain : ∀ s : Switch, s.Plain m) {f : Fault}
    (h : settings (flatten [("edl", .map m)]) = .error f) :
    ∃ (s : Switch) (value : Value), s.Says m value ∧ f = .settingNotBool s.key value := by
  have hblame : ∀ s : Switch,
      s.position (((flatten [("edl", .map m)]).find? s.fullKey).getD .null) = .error f →
      ∃ value, s.Says m value ∧ f = .settingNotBool s.key value := by
    intro s hs
    obtain ⟨hvalue, hf⟩ := Switch.position_eq_error_iff.1 hs
    cases hfind : (flatten [("edl", .map m)]).find? s.fullKey with
    | none =>
        rw [hfind] at hvalue
        exact absurd rfl hvalue.1
    | some value =>
        rw [hfind] at hf
        exact ⟨value, ((hplain s).find?_flatten_eq_some_iff hm).1 hfind, hf⟩
  rcases (settings_eq_error_iff (flat_flatten _)).1 h with hs | ⟨-, hs⟩
  · exact ⟨.linting, hblame .linting hs⟩
  · exact ⟨.intellisense, hblame .intellisense hs⟩

/-- **The two readers of settings agree.**  On a mapping that spells each switch at most once, and
not by a map, reading the section `edl` directly and making a workspace with it give the same
settings; or both fail, the workspace when it is made, with a fault that names the same switch and
value.  Two such mappings that say the same about the switches are read alike, whatever else they
hold. -/
theorem settings_readers_agree (hm : Mapping m) (hplain : ∀ s : Switch, s.Plain m) :
    ((∃ given w, Settings.read [("edl", .map m)] = .ok given ∧
        Workspace.create [("edl", .map m)] = .ok w ∧ w.settings = .ok given) ∨
      ∃ (s : Switch) (value : Value), s.Says m value ∧
        Settings.read [("edl", .map m)] = .error (.settingNotBool s.key value) ∧
        Workspace.create [("edl", .map m)] = .error (.settingNotBool s.key value)) ∧
    ∀ other, Mapping other → (∀ s : Switch, s.Plain other) →
      (∀ (s : Switch) (value : Value), s.Says other value ↔ s.Says m value) →
      Settings.read [("edl", .map other)] = Settings.read [("edl", .map m)] ∧
      (Workspace.create [("edl", .map other)] >>= Workspace.settings) =
        (Workspace.create [("edl", .map m)] >>= Workspace.settings) := by
  constructor
  · have hbind := create_bind_settings [("edl", .map m)]
    rw [read_section hm hplain]
    cases hcreate : Workspace.create [("edl", .map m)] with
    | error f =>
        rw [hcreate] at hbind
        obtain ⟨s, value, hsaid, rfl⟩ := settings_section_eq_error hm hplain hbind.symm
        exact .inr ⟨s, value, hsaid, hbind.symm, rfl⟩
    | ok w =>
        -- a workspace that was made can be read
        obtain ⟨given, hgiven⟩ := (Workspace.sound_of_create hcreate).readable
        rw [hcreate] at hbind
        exact .inl ⟨given, w, hbind.symm.trans hgiven, rfl, hgiven⟩
  · intro other hother hplain' hsame
    have hlookup : ∀ s : Switch, s.lookup other = s.lookup m := by
      intro s
      refine Option.ext ?_
      intro value
      rw [(hplain' s).lookup_eq_some_iff, (hplain s).lookup_eq_some_iff, hsame s value]
    have hread : Settings.read [("edl", .map other)] = Settings.read [("edl", .map m)] := by
      have hwithin : ∀ entries, Settings.within [("edl", .map entries)] = entries := fun _ => rfl
      rw [Settings.read, Settings.read, hwithin, hwithin]
      simp only [Switch.read_eq_position, hlookup]
    refine ⟨hread, ?_⟩
    rw [create_bind_settings, create_bind_settings, ← read_section hother hplain',
      ← read_section hm hplain, hread]

end

theorem settings_readers_agree_nested :
    ∃ m : List (String × Value), Mapping m ∧ (∀ s : Switch, s.Plain m) ∧
      m.lookup "edl" = some (.map [("linting.enabled", .int 1)]) ∧ m.lookup "" = some .null ∧
      Settings.read [("edl", .map m)] = .ok ⟨false, true⟩ ∧
      ∃ w, Workspace.create [("edl", .map m)] = .ok w ∧ w.settings = .ok ⟨false, true⟩ := by
  let m : List (String × Value) :=
    [("linting", .map [("", .map []), ("enabled", .bool false)]),
      ("edl", .map [("linting.enabled", .int 1)]), ("", .null), ("intellisense.enabled", .null)]
  have hm : Mapping m := by
    refine .intro (by decide) ?_
    intro key inner hmem
    simp only [m, List.mem_cons, List.not_mem_nil, or_false, Prod.mk.injEq, Value.map.injEq,
      reduceCtorEq, and_false] at hmem
    rcases hmem with ⟨-, rfl⟩ | ⟨-, rfl⟩
    · refine .intro (by decide) ?_
      intro key inner hmem
      simp only [List.mem_cons, List.not_mem_nil, or_false, Prod.mk.injEq, Value.map.injEq,
        reduceCtorEq, and_false] at hmem
      rw [hmem.2]
      exact .intro (by decide) (by simp)
    · exact .intro (by decide) (by simp)
  have hlinting : ∀ value, Switch.linting.Nested m value → value = .bool false := by
    rintro value ⟨inner, hgroup, henabled⟩
    obtain rfl := Value.map.inj (Option.some.inj hgroup)
    exact (Option.some.inj henabled).symm
  have hplain : ∀ s : Switch, s.Plain m := by
    intro s
    cases s with
    | linting =>
        refine ⟨?_, ?_⟩
        · rintro ⟨⟨value, hdotted⟩, -⟩
          cases hdotted
        · rintro value (hdotted | hnested)
          · cases hdotted
          · rw [hlinting value hnested]
            rfl
    | intellisense =>
        refine ⟨?_, ?_⟩
        · rintro ⟨-, value, inner, hgroup, -⟩
          cases hgroup
        · rintro value (hdotted | ⟨inner, hgroup, -⟩)
          · obtain rfl := Option.some.inj hdotted
            rfl
          · cases hgroup
  have hread : Settings.read [("edl", .map m)] = .ok ⟨false, true⟩ := rfl
  obtain ⟨hagree, -⟩ := settings_readers_agree hm hplain
  refine ⟨m, hm, hplain, rfl, rfl, hread, ?_⟩
  rcases hagree with ⟨given, w, hgiven, hcreate, hsettings⟩ | ⟨s, value, -, herror, -⟩
  · obtain rfl := Except.ok.inj (hread.symm.trans hgiven)
    exact ⟨w, hcreate, hsettings⟩
  · cases hread.symm.trans herror

end Edl.Config
