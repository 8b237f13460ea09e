/-
What a table holds after it was changed.

A table is seen from outside through two views: the value under a key, `Edl.Table.find?`, and the
keys in their order, `Edl.Table.keys`.  This module says what each operation does to both, so that
nothing later has to look at the list of entries.

Main results:

* `Edl.Table.find?_insert`, `Edl.Table.find?_erase`, `Edl.Table.find?_override` — the values after a
  change;
* `Edl.Table.keys_insert`, `Edl.Table.keys_erase` — the keys after a change, in order;
* `Edl.Table.find?_eq_some_iff` — looking up a key finds the one entry there is under it.
-/

import Edl.Table

set_option relaxedAutoImplicit false
set_option autoImplicit false

namespace Edl.Table

variable {α : Type}

/-! ### Looking up entries -/

theorem lookup_put_self (key : String) (value : α) (entries : List (String × α)) :
    (put key value entries).lookup key = some value := by
  induction entries with
  | nil => simp [put]
  | cons entry rest ih =>
      obtain ⟨name, old⟩ := entry
      by_cases h : name = key
      · simp [put, h]
      · have hbeq : (key == name) = false := by simpa using fun e : key = name => h e.symm
        simp only [put, if_neg h, List.lookup_cons, hbeq, ih]

theorem lookup_put_of_ne {key k : String} (value : α) (entries : List (String × α))
    (hk : k ≠ key) : (put key value entries).lookup k = entries.lookup k := by
  have hbeq : (k == key) = false := by simpa using hk
  induction entries with
  | nil => simp [put, hk]
  | cons entry rest ih =>
      obtain ⟨name, old⟩ := entry
      by_cases h : name = key
      · simp [put, h, List.lookup_cons, hbeq]
      · simp only [put, if_neg h, List.lookup_cons, ih]

/-- Under distinct keys, looking a key up finds its entry. -/
theorem lookup_eq_some_iff_mem {entries : List (String × α)}
    (hdistinct : (entries.map Prod.fst).Nodup) (key : String) (value : α) :
    entries.lookup key = some value ↔ (key, value) ∈ entries := by
  induction entries with
  | nil => simp
  | cons entry rest ih =>
      obtain ⟨name, old⟩ := entry
      rw [List.map_cons, List.nodup_cons] at hdistinct
      obtain ⟨hnew, hrest⟩ := hdistinct
      by_cases h : key = name
      · subst h
        -- the head is the entry, and no other has its key
        have hout : (key, value) ∉ rest := fun hmem => hnew (List.mem_map.2 ⟨_, hmem, rfl⟩)
        simp [hout, eq_comm]
      · have hbeq : (key == name) = false := by simpa using h
        simp only [List.lookup_cons, hbeq, ih hrest, List.mem_cons, Prod.mk.injEq, h, false_and,
          false_or]

/-- Looking up a key finds the entry under it. -/
theorem find?_eq_some_iff {t : Table α} {key : String} {value : α} :
    t.find? key = some value ↔ (key, value) ∈ t.entries :=
  lookup_eq_some_iff_mem t.distinct key value

theorem mem_keys_iff {t : Table α} {key : String} :
    key ∈ t.keys ↔ ∃ value, t.find? key = some value := by
  simp only [keys, List.mem_map, find?_eq_some_iff]
  constructor
  · rintro ⟨⟨name, value⟩, hmem, rfl⟩
    exact ⟨value, hmem⟩
  · rintro ⟨value, hmem⟩
    exact ⟨(key, value), hmem, rfl⟩

theorem mem_values_iff {t : Table α} {value : α} :
    value ∈ t.values ↔ ∃ key, t.find? key = some value := by
  simp only [values, List.mem_map, find?_eq_some_iff]
  constructor
  · rintro ⟨⟨key, value⟩, hmem, rfl⟩
    exact ⟨key, hmem⟩
  · rintro ⟨key, hmem⟩
    exact ⟨(key, value), hmem, rfl⟩

theorem find?_eq_none_iff {t : Table α} {key : String} : t.find? key = none ↔ key ∉ t.keys := by
  rw [mem_keys_iff]
  cases h : t.find? key <;> simp

theorem contains_iff {t : Table α} {key : String} : t.contains key = true ↔ key ∈ t.keys := by
  rw [contains, Option.isSome_iff_exists, mem_keys_iff]

theorem contains_eq_false_iff {t : Table α} {key : String} :
    t.contains key = false ↔ key ∉ t.keys := by
  rw [← contains_iff, Bool.not_eq_true]

/-! ### After an insertion -/

@[simp] theorem find?_empty (key : String) : (empty : Table α).find? key = none := rfl

@[simp] theorem find?_insert_self (t : Table α) (key : String) (value : α) :
    (t.insert key value).find? key = some value :=
  lookup_put_self key value t.entries

theorem find?_insert_of_ne {t : Table α} {key k : String} {value : α} (h : k ≠ key) :
    (t.insert key value).find? k = t.find? k :=
  lookup_put_of_ne value t.entries h

theorem find?_insert (t : Table α) (key k : String) (value : α) :
    (t.insert key value).find? k = if k = key then some value else t.find? k := by
  split
  · next h => rw [h, find?_insert_self]
  · next h => exact find?_insert_of_ne h

theorem keys_insert_of_mem {t : Table α} {key : String} {value : α} (h : key ∈ t.keys) :
    (t.insert key value).keys = t.keys := by
  exact (map_fst_put key value t.entries).trans (if_pos h)

theorem keys_insert_of_not_mem {t : Table α} {key : String} {value : α} (h : key ∉ t.keys) :
    (t.insert key value).keys = t.keys ++ [key] := by
  exact (map_fst_put key value t.entries).trans (if_neg h)

/-- Writing what is there already changes nothing. -/
theorem put_of_lookup {entries : List (String × α)} {key : String} {value : α}
    (h : entries.lookup key = some value) : put key value entries = entries := by
  induction entries with
  | nil => cases h
  | cons entry rest ih =>
      by_cases hkey : entry.1 = key
      · subst hkey
        rw [List.lookup_cons_self] at h
        rw [put, if_pos rfl, ← Option.some.inj h]
      · have hbeq : (key == entry.1) = false := by simpa using Ne.symm hkey
        rw [List.lookup_cons, hbeq] at h
        rw [put, if_neg hkey, ih h]

theorem insert_of_find? {t : Table α} {key : String} {value : α} (h : t.find? key = some value) :
    t.insert key value = t :=
  ext_entries (put_of_lookup h)

/-! ### After a removal -/

@[simp] theorem find?_erase_self (t : Table α) (key : String) : (t.erase key).find? key = none := by
  rw [find?_eq_none_iff, keys, entries_erase, List.mem_map]
  rintro ⟨entry, hmem, rfl⟩
  simp at hmem

theorem find?_erase_of_ne {t : Table α} {key k : String} (h : k ≠ key) :
    (t.erase key).find? k = t.find? k := by
  refine Option.ext fun value => ?_
  rw [find?_eq_some_iff, find?_eq_some_iff, entries_erase, List.mem_filter]
  simp [h]

theorem find?_erase (t : Table α) (key k : String) :
    (t.erase key).find? k = if k = key then none else t.find? k := by
  split
  · next h => rw [h, find?_erase_self]
  · next h => exact find?_erase_of_ne h

theorem keys_erase (t : Table α) (key : String) :
    (t.erase key).keys = t.keys.filter (· != key) := by
  rw [keys, entries_erase, keys, List.filter_map]
  rfl

theorem erase_of_not_mem {t : Table α} {key : String} (h : key ∉ t.keys) : t.erase key = t := by
  refine ext_entries (List.filter_eq_self.2 ?_)
  rintro ⟨name, value⟩ hmem
  have hne : name ≠ key := fun e => h (e ▸ List.mem_map.2 ⟨_, hmem, rfl⟩)
  simpa using hne

/-! ### The keys of some values -/

/-- The keys of the values that a test accepts, in order. -/
def keysWhere (p : α → Bool) (t : Table α) : List String :=
  (t.entries.filter fun entry => p entry.2).map Prod.fst

theorem mem_keysWhere_iff {p : α → Bool} {t : Table α} {key : String} :
    key ∈ t.keysWhere p ↔ ∃ value, t.find? key = some value ∧ p value = true := by
  simp only [keysWhere, List.mem_map, List.mem_filter, find?_eq_some_iff]
  constructor
  · rintro ⟨⟨name, value⟩, hmem, rfl⟩
    exact ⟨value, hmem⟩
  · rintro ⟨value, hmem⟩
    exact ⟨(key, value), hmem, rfl⟩

theorem put_of_not_mem {entries : List (String × α)} {key : String} (value : α)
    (h : key ∉ entries.map Prod.fst) : put key value entries = entries ++ [(key, value)] := by
  induction entries with
  | nil => rfl
  | cons entry rest ih =>
      rw [List.map_cons, List.mem_cons, not_or] at h
      rw [put, if_neg (Ne.symm h.1), ih h.2, List.cons_append]

theorem keysWhere_insert_of_not_mem {p : α → Bool} {t : Table α} {key : String} {value : α}
    (h : key ∉ t.keys) :
    (t.insert key value).keysWhere p = t.keysWhere p ++ if p value then [key] else [] := by
  rw [keysWhere, entries_insert, put_of_not_mem value h, List.filter_append, List.map_append]
  cases hp : p value <;> simp [keysWhere, hp]

theorem map_fst_filter_put {p : α → Bool} {entries : List (String × α)} {key : String}
    {before after : α} (h : entries.lookup key = some before) (hp : p after = p before) :
    ((put key after entries).filter fun entry => p entry.2).map Prod.fst =
      (entries.filter fun entry => p entry.2).map Prod.fst := by
  induction entries with
  | nil => cases h
  | cons entry rest ih =>
      by_cases hkey : entry.1 = key
      · subst hkey
        rw [List.lookup_cons_self] at h
        obtain rfl := Option.some.inj h
        rw [put, if_pos rfl, List.filter_cons, List.filter_cons, hp]
        split <;> rfl
      · have hbeq : (key == entry.1) = false := by simpa using Ne.symm hkey
        rw [List.lookup_cons, hbeq] at h
        rw [put, if_neg hkey, List.filter_cons, List.filter_cons]
        split
        · rw [List.map_cons, List.map_cons, ih h]
        · exact ih h

/-- Replacing a value by one that passes the test just as well leaves the keys as they are. -/
theorem keysWhere_insert_of_find? {p : α → Bool} {t : Table α} {key : String} {before after : α}
    (h : t.find? key = some before) (hp : p after = p before) :
    (t.insert key after).keysWhere p = t.keysWhere p :=
  map_fst_filter_put h hp

theorem keysWhere_erase (p : α → Bool) (t : Table α) (key : String) :
    (t.erase key).keysWhere p = (t.keysWhere p).filter (· != key) := by
  rw [keysWhere, entries_erase, keysWhere, List.filter_map, List.filter_filter, List.filter_filter]
  simp only [Bool.and_comm]
  rfl

/-! ### After many insertions -/

theorem find?_foldl_insert_of_not_mem (entries : List (String × α)) (t : Table α) {k : String}
    (hk : k ∉ entries.map Prod.fst) :
    (entries.foldl (fun t entry => t.insert entry.1 entry.2) t).find? k = t.find? k := by
  induction entries generalizing t with
  | nil => rfl
  | cons entry rest ih =>
      rw [List.map_cons, List.mem_cons, not_or] at hk
      rw [List.foldl_cons, ih _ hk.2, find?_insert_of_ne hk.1]

theorem find?_foldl_insert_of_mem {entries : List (String × α)} (t : Table α) {k : String}
    {value : α} (hdistinct : (entries.map Prod.fst).Nodup) (hk : (k, value) ∈ entries) :
    (entries.foldl (fun t entry => t.insert entry.1 entry.2) t).find? k = some value := by
  induction entries generalizing t with
  | nil => simp at hk
  | cons entry rest ih =>
      rw [List.map_cons, List.nodup_cons] at hdistinct
      rw [List.foldl_cons]
      rcases List.mem_cons.1 hk with rfl | hk
      · rw [find?_foldl_insert_of_not_mem rest _ hdistinct.1, find?_insert_self]
      · exact ih _ hdistinct.2 hk

/-- The second table has the say over a key that it holds, and the first over all others. -/
theorem find?_override (t u : Table α) (k : String) :
    (t.override u).find? k = (u.find? k).or (t.find? k) := by
  cases h : u.find? k with
  | none =>
      rw [find?_eq_none_iff] at h
      exact find?_foldl_insert_of_not_mem u.entries t h
  | some value =>
      exact find?_foldl_insert_of_mem t u.distinct (find?_eq_some_iff.1 h)

end Edl.Table
