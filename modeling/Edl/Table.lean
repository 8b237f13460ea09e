/-
Tables keyed by text that remember the order of insertion.

A table is a list of entries with pairwise distinct keys.  Writing under a key that is already
there replaces the value and keeps its place; writing under a new key adds an entry at the end;
erasing removes the entry, so that writing the key again puts it last.

Main definitions:

* `Edl.Table` — the type, with the distinctness of its keys;
* `Edl.Table.find?`, `Edl.Table.insert`, `Edl.Table.erase` — look-up and update;
* `Edl.Table.ofList`, `Edl.Table.override` — many insertions one after another.
-/

set_option relaxedAutoImplicit false
set_option autoImplicit false

namespace Edl

/-- A list of entries with pairwise distinct keys, in order of insertion. -/
structure Table (α : Type) where
  entries : List (String × α)
  distinct : (entries.map Prod.fst).Nodup

namespace Table

variable {α β : Type}

/-! ### Entries -/

/-- The entries with `value` under `key`: in place of an entry of that key, or else at the end. -/
def put (key : String) (value : α) : List (String × α) → List (String × α)
  | [] => [(key, value)]
  | entry :: rest =>
      if entry.1 = key then (key, value) :: rest else entry :: put key value rest

/-- Writing under a key that is there leaves the keys as they are; otherwise it comes last. -/
theorem map_fst_put (key : String) (value : α) (entries : List (String × α)) :
    (put key value entries).map Prod.fst =
      if key ∈ entries.map Prod.fst then entries.map Prod.fst
      else entries.map Prod.fst ++ [key] := by
  induction entries with
  | nil => simp [put]
  | cons entry rest ih =>
      by_cases h : entry.1 = key
      · simp [put, h]
      · have h' : ¬key = entry.1 := fun e => h e.symm
        simp only [put, if_neg h, List.map_cons, ih, List.mem_cons, h', false_or]
        split <;> simp

/-! ### Operations -/

/-- The table without entries. -/
def empty : Table α :=
  ⟨[], List.nodup_nil⟩

instance : Inhabited (Table α) := ⟨empty⟩

/-- The keys in order. -/
def keys (t : Table α) : List String :=
  t.entries.map Prod.fst

/-- The values in order. -/
def values (t : Table α) : List α :=
  t.entries.map Prod.snd

/-- The value under a key. -/
def find? (t : Table α) (key : String) : Option α :=
  t.entries.lookup key

/-- Whether there is an entry under a key. -/
def contains (t : Table α) (key : String) : Bool :=
  (t.find? key).isSome

/-- The table with `value` under `key`; a key that is already there keeps its place. -/
def insert (t : Table α) (key : String) (value : α) : Table α where
  entries := put key value t.entries
  distinct := by
    rw [map_fst_put]
    split
    · exact t.distinct
    · rename_i h
      refine List.nodup_append.2 ⟨t.distinct, by simp, ?_⟩
      intro a ha b hb hab
      rw [List.mem_singleton] at hb
      exact h (hb ▸ hab ▸ ha)

/-- The table without the entry under a key. -/
def erase (t : Table α) (key : String) : Table α where
  entries := t.entries.filter fun entry => entry.1 != key
  distinct := t.distinct.sublist (List.filter_sublist.map _)

/-- The insertions of a list of entries, one after another. -/
def ofList (entries : List (String × α)) : Table α :=
  entries.foldl (fun t entry => t.insert entry.1 entry.2) empty

/-- The first table with all entries of the second written into it. -/
def override (t u : Table α) : Table α :=
  u.entries.foldl (fun t entry => t.insert entry.1 entry.2) t

@[simp] theorem entries_empty : (empty : Table α).entries = [] := rfl

@[simp] theorem entries_insert (t : Table α) (key : String) (value : α) :
    (t.insert key value).entries = put key value t.entries := rfl

@[simp] theorem entries_erase (t : Table α) (key : String) :
    (t.erase key).entries = t.entries.filter fun entry => entry.1 != key := rfl

/-- Two tables with the same entries are the same table. -/
theorem ext_entries {t u : Table α} (h : t.entries = u.entries) : t = u := by
  cases t
  cases u
  simpa using h

end Table

end Edl
