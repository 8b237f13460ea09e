/-
Tables that are written over tables.

Many entries can be written into a table one after another, or they can be made into a table of
their own first, which is then written over the other as a whole.  Both give the same table, keys
and order included.  The argument goes through the two views of a table: a table is determined by
its keys in order and by the values under them.  The keys come in the order in which each was first
written, and the value under a key is the one that was written last.

Main definitions:

* `Edl.Table.writeAll` — a table with entries written into it.

Main results:

* `Edl.Table.ext_views` — a table is determined by its two views;
* `Edl.Table.keys_writeAll`, `Edl.Table.find?_writeAll` — first place, last value;
* `Edl.Table.override_insert`, `Edl.Table.override_ofList` — **writing over a table can be done
  entry by entry**.
-/

import Edl.Proofs.Table

set_option relaxedAutoImplicit false
set_option autoImplicit false

namespace Edl.Table

variable {α : Type}

/-! ### Two views -/

/-- The keys with what is found under them make up the entries. -/
theorem map_keys_find? (t : Table α) :
    t.keys.map (fun key => (key, t.find? key)) =
      t.entries.map fun entry => (entry.1, some entry.2) := by
  rw [keys, List.map_map]
  refine List.map_congr_left ?_
  rintro ⟨key, value⟩ hmem
  exact congrArg (key, ·) (find?_eq_some_iff.2 hmem)

/-- Two tables with the same keys in order and the same values under them are the same. -/
theorem ext_views {t u : Table α} (hkeys : t.keys = u.keys)
    (hfind : ∀ key, t.find? key = u.find? key) : t = u := by
  have hmap := map_keys_find? t
  rw [hkeys, funext hfind, map_keys_find? u] at hmap
  refine ext_entries ((List.map_inj_right ?_).1 hmap.symm)
  rintro ⟨key, value⟩ ⟨key', value'⟩ h
  simpa using h

/-! ### Many entries -/

/-- The table with the entries written into it, one after another. -/
def writeAll (t : Table α) (entries : List (String × α)) : Table α :=
  entries.foldl (fun t entry => t.insert entry.1 entry.2) t

@[simp] theorem writeAll_nil (t : Table α) : t.writeAll [] = t := rfl

theorem writeAll_cons (t : Table α) (key : String) (value : α) (rest : List (String × α)) :
    t.writeAll ((key, value) :: rest) = (t.insert key value).writeAll rest := rfl

theorem writeAll_append (t : Table α) (first second : List (String × α)) :
    t.writeAll (first ++ second) = (t.writeAll first).writeAll second :=
  List.foldl_append

/-- A list without repetitions has nothing to erase. -/
theorem eraseDups_of_nodup {keys : List String} (h : keys.Nodup) : keys.eraseDups = keys := by
  induction keys with
  | nil => rfl
  | cons key rest ih =>
      obtain ⟨hnew, hrest⟩ := List.nodup_cons.1 h
      have hkeep : rest.filter (fun k => !k == key) = rest := by
        refine List.filter_eq_self.2 ?_
        intro k hk
        have hne : k ≠ key := fun heq => hnew (heq ▸ hk)
        simpa using hne
      rw [List.eraseDups_cons, hkeep, ih hrest]

/-- A key that is there already does not count when it is written again. -/
theorem eraseDups_append_cons_of_mem {keys rest : List String} {key : String} (h : key ∈ keys) :
    (keys ++ key :: rest).eraseDups = (keys ++ rest).eraseDups := by
  have hdrop : (key :: rest).removeAll keys = rest.removeAll keys := by
    simp [List.removeAll, h]
  rw [List.eraseDups_append, List.eraseDups_append, hdrop]

/-- The keys come in the order in which each was first written. -/
theorem keys_writeAll (t : Table α) (entries : List (String × α)) :
    (t.writeAll entries).keys = (t.keys ++ entries.map Prod.fst).eraseDups := by
  induction entries generalizing t with
  | nil =>
      rw [List.map_nil, List.append_nil]
      exact (eraseDups_of_nodup t.distinct).symm
  | cons entry rest ih =>
      obtain ⟨key, value⟩ := entry
      rw [writeAll_cons, ih, List.map_cons]
      by_cases h : key ∈ t.keys
      · rw [keys_insert_of_mem h, eraseDups_append_cons_of_mem h]
      · rw [keys_insert_of_not_mem h, List.append_assoc, List.singleton_append]

/-- The value under a key is the one that was written last. -/
theorem find?_writeAll (t : Table α) (entries : List (String × α)) (key : String) :
    (t.writeAll entries).find? key = (entries.reverse.lookup key).or (t.find? key) := by
  induction entries generalizing t with
  | nil => rfl
  | cons entry rest ih =>
      obtain ⟨name, value⟩ := entry
      rw [writeAll_cons, ih, List.reverse_cons, List.lookup_append, Option.or_assoc, find?_insert]
      by_cases h : key = name
      · simp [h]
      · have hbeq : (key == name) = false := by simpa using h
        simp [h, hbeq, List.lookup_cons]

theorem keys_ofList (entries : List (String × α)) :
    (ofList entries).keys = (entries.map Prod.fst).eraseDups :=
  keys_writeAll empty entries

/-- What is found in a table of entries is the last of those under the key. -/
theorem find?_ofList_eq_some_iff {entries : List (String × α)} {key : String} {value : α} :
    (ofList entries).find? key = some value ↔
      ∃ before after, entries = before ++ (key, value) :: after ∧
        ∀ entry ∈ after, entry.1 ≠ key := by
  have hlast : (ofList entries).find? key = entries.reverse.lookup key :=
    (find?_writeAll empty entries key).trans Option.or_none
  rw [hlast, List.lookup_eq_some_iff]
  constructor
  · rintro ⟨after, before, hentries, hafter⟩
    refine ⟨before.reverse, after.reverse, ?_, ?_⟩
    · have hreverse := congrArg List.reverse hentries
      simpa using hreverse
    · intro entry hentry
      have hne := hafter entry (List.mem_reverse.1 hentry)
      exact fun heq => bne_iff_ne.1 hne heq.symm
  · rintro ⟨before, after, rfl, hafter⟩
    refine ⟨after.reverse, before.reverse, by simp, ?_⟩
    intro entry hentry
    exact bne_iff_ne.2 (hafter entry (List.mem_reverse.1 hentry)).symm

/-- A table can be made from its entries. -/
theorem ofList_entries (t : Table α) : ofList t.entries = t := by
  refine ext_views ?_ ?_
  · rw [keys_ofList]
    exact eraseDups_of_nodup t.distinct
  · intro key
    exact (find?_override empty t key).trans Option.or_none

/-! ### Tables over tables -/

theorem keys_override (t u : Table α) : (t.override u).keys = (t.keys ++ u.keys).eraseDups :=
  keys_writeAll t u.entries

/-- An entry that is written into the upper table may as well be written over the lower one. -/
theorem override_insert (t u : Table α) (key : String) (value : α) :
    t.override (u.insert key value) = (t.override u).insert key value := by
  refine ext_views ?_ ?_
  · have hkeys := keys_override t u
    by_cases h : key ∈ u.keys
    · have hmem : key ∈ (t.override u).keys := by
        rw [hkeys, List.mem_eraseDups]
        exact List.mem_append_right _ h
      rw [keys_override, keys_insert_of_mem h, keys_insert_of_mem hmem, hkeys]
    · -- a new key comes last on both sides
      have hentries : (u.insert key value).entries = u.entries ++ [(key, value)] :=
        put_of_not_mem value h
      have hwrite : t.override (u.insert key value) = t.writeAll (u.entries ++ [(key, value)]) :=
        congrArg t.writeAll hentries
      rw [hwrite, writeAll_append]
      rfl
  · intro k
    rw [find?_override, find?_insert, find?_insert, find?_override]
    by_cases h : k = key
    · simp [h]
    · simp [h]

theorem override_writeAll (t u : Table α) (entries : List (String × α)) :
    t.override (u.writeAll entries) = (t.override u).writeAll entries := by
  induction entries generalizing u with
  | nil => rfl
  | cons entry rest ih =>
      obtain ⟨key, value⟩ := entry
      rw [writeAll_cons, ih, override_insert, writeAll_cons]

/-- Writing a table of entries over another is writing the entries. -/
theorem override_ofList (t : Table α) (entries : List (String × α)) :
    t.override (ofList entries) = t.writeAll entries :=
  override_writeAll t empty entries

end Edl.Table
