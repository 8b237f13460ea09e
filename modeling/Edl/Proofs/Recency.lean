/-
Late results cannot take the place of newer ones.

A write is compared with the stored entry only, and yet the entry of a document is always the one
that its whole history calls for: of the writes since the last deletion, those without a version
count as they come, and among the versioned ones that follow, the largest version counts, the latest
write of it if there are several.  So when results that belong to distinct versions arrive in any
order, the same ones are left in the end.

Main definitions:

* `Edl.Edit`, `Edl.Collection.edit`, `Edl.Collection.editAll` — the changes of a collection as data;
* `Edl.writesTo`, `Edl.recent` — the writes to a document since its last deletion, and those of them
  since the last one without a version;
* `Edl.Stands` — what a history of writes leaves.

Main results:

* `Edl.Collection.Follows.edit`, `Edl.Collection.Follows.editAll` — an edit, and any number of them,
  keep a collection in line with its history;
* `Edl.Stands.unique_of_perm` — the order of writes of distinct versions does not matter;
* `Edl.Collection.late_writes_cannot_regress` — **late results cannot regress the collection**.
-/

import Edl.Proofs.Feeding

set_option relaxedAutoImplicit false
set_option autoImplicit false

namespace Edl

/-! ### Histories of a collection -/

/-- A change that can be asked of a collection. -/
inductive Edit where
  | write (uri : String) (e : Entry)
  | delete (uri : String)
  | clear

/-- The collection after an edit; a stale write, and the deletion of nothing, leave it as it is. -/
def Collection.edit (c : Collection) : Edit → Except Fault Collection
  | .write uri e => do return (← c.write uri e).getD c
  | .delete uri => do return (← c.delete uri).getD c
  | .clear => .ok c.clear

/-- The collection after edits, one after another. -/
def Collection.editAll (c : Collection) : List Edit → Except Fault Collection
  | [] => .ok c
  | edit :: edits => do (← c.edit edit).editAll edits

/-- The writes to a document that count after one more edit. -/
def Edit.track (uri : String) (writes : List Entry) : Edit → List Entry
  | .write k e => if k = uri then writes ++ [e] else writes
  | .delete k => if k = uri then [] else writes
  | .clear => []

/-- The writes to a document since it was last deleted, the oldest first. -/
def writesTo (uri : String) (edits : List Edit) : List Entry :=
  edits.foldl (Edit.track uri) []

/-- The writes that follow the last one without a version. -/
def recent (writes : List Entry) : List Entry :=
  (writes.reverse.takeWhile fun e => e.version.isSome).reverse

theorem recent_append_of_some {e : Entry} {v : Int} (he : e.version = some v)
    (writes : List Entry) : recent (writes ++ [e]) = recent writes ++ [e] := by
  simp [recent, he]

theorem recent_append_of_none {e : Entry} (he : e.version = none) (writes : List Entry) :
    recent (writes ++ [e]) = [] := by
  simp [recent, he]

theorem exists_version_of_mem_recent {writes : List Entry} {e : Entry} (h : e ∈ recent writes) :
    ∃ v, e.version = some v := by
  have hall : ((writes.reverse.takeWhile fun x => x.version.isSome).all
      fun x => x.version.isSome) = true := List.all_takeWhile
  exact Option.isSome_iff_exists.1 (List.all_eq_true.1 hall e (List.mem_reverse.1 h))

/-- If every write has a version, all of them are recent. -/
theorem recent_of_versioned {writes : List Entry} (h : ∀ e ∈ writes, ∃ v, e.version = some v) :
    recent writes = writes := by
  have hall : ∀ e ∈ writes.reverse, e.version.isSome = true := by
    intro e he
    exact Option.isSome_iff_exists.2 (h e (List.mem_reverse.1 he))
  rw [recent, ← List.append_nil writes.reverse, List.takeWhile_append_of_pos hall,
    List.takeWhile_nil, List.append_nil, List.reverse_reverse]

/-! ### What a history leaves -/

/-- The entry is the latest of those with the largest version, which is `v`. -/
structure Tops (writes : List Entry) (e : Entry) (v : Int) : Prop where
  version : e.version = some v
  latest : ∃ front back, writes = front ++ e :: back ∧
    (∀ x ∈ front, ∃ u, x.version = some u ∧ u ≤ v) ∧ ∀ x ∈ back, ∃ u, x.version = some u ∧ u < v

/-- What writes leave: nothing if there are none, the last one if it has no version, and otherwise
the latest of the largest version since the last one without a version. -/
def Stands (writes : List Entry) : Option Entry → Prop
  | none => writes = []
  | some e => e.version = none ∧ writes.getLast? = some e ∨ ∃ v, Tops (recent writes) e v

namespace Tops

variable {writes : List Entry} {e x : Entry} {u v : Int}

theorem mem (h : Tops writes e v) : e ∈ writes := by
  obtain ⟨front, back, rfl, -⟩ := h.latest
  simp

theorem le (h : Tops writes e v) (hx : x ∈ writes) (hu : x.version = some u) : u ≤ v := by
  obtain ⟨front, back, rfl, hfront, hback⟩ := h.latest
  rcases List.mem_append.1 hx with hx | hx
  · obtain ⟨u', hu', hle⟩ := hfront x hx
    obtain rfl := Option.some.inj (hu.symm.trans hu')
    exact hle
  · rcases List.mem_cons.1 hx with rfl | hx
    · obtain rfl := Option.some.inj (hu.symm.trans h.version)
      exact Int.le_refl _
    · obtain ⟨u', hu', hlt⟩ := hback x hx
      obtain rfl := Option.some.inj (hu.symm.trans hu')
      exact Int.le_of_lt hlt

/-- A write of an older version does not change which entry is on top. -/
theorem append_of_lt (h : Tops writes e v) (hu : x.version = some u) (hlt : u < v) :
    Tops (writes ++ [x]) e v := by
  obtain ⟨front, back, rfl, hfront, hback⟩ := h.latest
  refine ⟨h.version, front, back ++ [x], by simp, hfront, fun y hy => ?_⟩
  rcases List.mem_append.1 hy with hy | hy
  · exact hback y hy
  · obtain rfl := List.mem_singleton.1 hy
    exact ⟨u, hu, hlt⟩

/-- A write whose version is at least as large as all others is on top. -/
theorem append_self (hx : x.version = some v)
    (h : ∀ y ∈ writes, ∃ u, y.version = some u ∧ u ≤ v) : Tops (writes ++ [x]) x v :=
  ⟨hx, writes, [], rfl, h, by simp⟩

end Tops

namespace Stands

variable {writes : List Entry} {e : Entry}

/-- Either no write is recent and no version is stored, or the recent writes have a top and it is
stored. -/
theorem recent_cases {stored : Option Entry} (h : Stands writes stored) :
    (recent writes = [] ∧ ∀ e, stored = some e → e.version = none) ∨
      ∃ e v, stored = some e ∧ Tops (recent writes) e v := by
  cases stored with
  | none =>
      obtain rfl : writes = [] := h
      exact .inl ⟨rfl, by simp⟩
  | some e =>
      rcases h with ⟨hnone, hlast⟩ | ⟨v, htops⟩
      · obtain ⟨older, rfl⟩ := List.getLast?_eq_some_iff.1 hlast
        refine .inl ⟨recent_append_of_none hnone older, fun e' he' => ?_⟩
        obtain rfl := Option.some.inj he'
        exact hnone
      · exact .inr ⟨e, v, rfl, htops⟩

theorem of_nil {stored : Option Entry} (h : Stands [] stored) : stored = none := by
  cases stored with
  | none => rfl
  | some e =>
      rcases h with ⟨-, hlast⟩ | ⟨v, htops⟩
      · cases hlast
      · cases htops.mem

theorem of_last_unversioned {stored : Option Entry} (h : Stands writes stored)
    (hlast : writes.getLast? = some e) (he : e.version = none) : stored = some e := by
  obtain ⟨older, rfl⟩ := List.getLast?_eq_some_iff.1 hlast
  cases stored with
  | none => exact absurd h (by simp [Stands])
  | some e' =>
      rcases h with ⟨-, hlast'⟩ | ⟨v, htops⟩
      · exact hlast'.symm.trans hlast
      · have hmem := htops.mem
        rw [recent_append_of_none he] at hmem
        cases hmem

theorem of_last_versioned {stored : Option Entry} {v : Int} (h : Stands writes stored)
    (hlast : writes.getLast? = some e) (he : e.version = some v) :
    ∃ top w, stored = some top ∧ Tops (recent writes) top w := by
  rcases h.recent_cases with ⟨hnil, -⟩ | htop
  · obtain ⟨older, rfl⟩ := List.getLast?_eq_some_iff.1 hlast
    rw [recent_append_of_some he] at hnil
    exact absurd hnil (by simp)
  · exact htop

/-- Writes of distinct versions leave the same entry in every order. -/
theorem unique_of_perm {writes' : List Entry} {stored stored' : Option Entry}
    (hperm : writes.Perm writes') (hversioned : ∀ e ∈ writes, ∃ v, e.version = some v)
    (hdistinct : writes.Pairwise fun e e' => e.version ≠ e'.version)
    (h : Stands writes stored) (h' : Stands writes' stored') : stored = stored' := by
  have hversioned' : ∀ e ∈ writes', ∃ v, e.version = some v :=
    fun e he => hversioned e (hperm.mem_iff.2 he)
  -- entries of one version are one entry
  have hinj : ∀ ⦃e⦄, e ∈ writes → ∀ ⦃e'⦄, e' ∈ writes → e.version = e'.version → e = e' := by
    refine List.Pairwise.forall_of_forall_of_flip (fun _ _ _ => rfl) ?_ ?_
    · exact hdistinct.imp fun hne heq => absurd heq hne
    · exact hdistinct.imp fun hne heq => absurd heq.symm hne
  have hrecent := recent_of_versioned hversioned
  have hrecent' := recent_of_versioned hversioned'
  rcases h.recent_cases with ⟨hnil, -⟩ | ⟨e, v, rfl, htops⟩
  · obtain rfl : writes = [] := hrecent ▸ hnil
    obtain rfl := List.nil_perm.1 hperm
    rw [of_nil h, of_nil h']
  · rw [hrecent] at htops
    rcases h'.recent_cases with ⟨hnil', -⟩ | ⟨e', v', rfl, htops'⟩
    · obtain rfl : writes' = [] := hrecent' ▸ hnil'
      cases hperm.mem_iff.1 htops.mem
    · rw [hrecent'] at htops'
      have hmem' := hperm.mem_iff.2 htops'.mem
      have hle := htops'.le (hperm.mem_iff.1 htops.mem) htops.version
      have hge := htops.le hmem' htops'.version
      have hversion : e.version = e'.version := by
        rw [htops.version, htops'.version, Int.le_antisymm hle hge]
      rw [hinj htops.mem hmem' hversion]

end Stands

/-! ### One edit, and many -/

namespace Collection

variable {c : Collection}

/-- A write is stale if the stored entry has a larger version. -/
theorem isStale_iff {uri : String} {e : Entry} :
    c.isStale uri e = true ↔ ∃ stored u v, c.entries.find? uri = some stored ∧
      stored.version = some u ∧ e.version = some v ∧ v < u := by
  unfold isStale versionOf
  cases c.entries.find? uri with
  | none => simp
  | some stored =>
      cases hstored : stored.version with
      | none => simp [hstored]
      | some u => cases he : e.version <;> simp [hstored]

/-- The collection is alive and holds, for every document, what the writes to it leave. -/
structure Follows (c : Collection) (writes : String → List Entry) : Prop where
  alive : c.disposed = false
  stands : ∀ uri, Stands (writes uri) (c.entries.find? uri)

namespace Follows

variable {writes : String → List Entry}

theorem of_empty (halive : c.disposed = false) (hempty : c.entries = .empty) :
    c.Follows fun _ => [] := by
  refine ⟨halive, fun uri => ?_⟩
  rw [hempty, Table.find?_empty]
  rfl

/-- A write is stale if some recent write to the document has a larger version. -/
theorem isStale_iff_exists_recent (h : c.Follows writes) {uri : String} {e : Entry} {v : Int}
    (he : e.version = some v) :
    c.isStale uri e = true ↔ ∃ x ∈ recent (writes uri), ∃ u, x.version = some u ∧ v < u := by
  rw [isStale_iff]
  rcases (h.stands uri).recent_cases with ⟨hnil, hnone⟩ | ⟨top, w, hfind, htops⟩
  · rw [hnil]
    constructor
    · rintro ⟨stored, u, -, hfind, hu, -⟩
      rw [hnone stored hfind] at hu
      cases hu
    · rintro ⟨x, hx, -⟩
      cases hx
  · constructor
    · rintro ⟨stored, u, v', hfind', hu, hv', hlt⟩
      obtain rfl := Option.some.inj (hfind.symm.trans hfind')
      obtain rfl := Option.some.inj (he.symm.trans hv')
      exact ⟨top, htops.mem, u, hu, hlt⟩
    · rintro ⟨x, hx, u, hu, hlt⟩
      exact ⟨top, w, v, hfind, htops.version, he, Int.lt_of_lt_of_le hlt (htops.le hx hu)⟩

/-- A write leaves what the history with the write in it calls for. -/
theorem stands_accept (h : c.Follows writes) (uri : String) (e : Entry) :
    Stands (writes uri ++ [e]) ((c.accept uri e).entries.find? uri) := by
  by_cases hstale : c.isStale uri e = true
  · -- the stored entry has a larger version, and so it stays on top
    obtain ⟨stored, u, v, hfind, hu, hv, hlt⟩ := isStale_iff.1 hstale
    rw [accept, if_pos hstale, hfind]
    rcases (h.stands uri).recent_cases with ⟨-, hnone⟩ | ⟨top, w, hfind', htops⟩
    · rw [hnone stored hfind] at hu
      cases hu
    · obtain rfl := Option.some.inj (hfind'.symm.trans hfind)
      obtain rfl := Option.some.inj (hu.symm.trans htops.version)
      exact .inr ⟨u, recent_append_of_some hv _ ▸ htops.append_of_lt hv hlt⟩
  · rw [accept, if_neg hstale]
    simp only [Table.find?_insert_self]
    cases he : e.version with
    | none => exact .inl ⟨he, List.getLast?_concat⟩
    | some v =>
        refine .inr ⟨v, recent_append_of_some he _ ▸ Tops.append_self he fun x hx => ?_⟩
        obtain ⟨u, hu⟩ := exists_version_of_mem_recent hx
        refine ⟨u, hu, Int.not_lt.1 fun hlt => hstale ?_⟩
        exact (h.isStale_iff_exists_recent he).2 ⟨x, hx, u, hu, hlt⟩

theorem accept (h : c.Follows writes) (uri : String) (e : Entry) :
    (c.accept uri e).Follows fun k => (Edit.write uri e).track k (writes k) := by
  refine ⟨(accept_disposed c uri e).trans h.alive, fun k => ?_⟩
  by_cases hk : uri = k
  · subst hk
    simp only [Edit.track, if_true]
    exact h.stands_accept uri e
  · simp only [Edit.track, if_neg hk]
    rw [find?_accept_of_ne (Ne.symm hk)]
    exact h.stands k

theorem forget (h : c.Follows writes) (uri : String) :
    (c.forget uri).Follows fun k => (Edit.delete uri).track k (writes k) := by
  refine ⟨h.alive, fun k => ?_⟩
  by_cases hk : uri = k
  · subst hk
    simp only [Edit.track, if_true, Collection.forget, Table.find?_erase_self]
    rfl
  · simp only [Edit.track, if_neg hk, Collection.forget]
    rw [Table.find?_erase_of_ne (Ne.symm hk)]
    exact h.stands k

/-- An edit is carried out, and keeps a collection in line with its history; nobody comes to observe
it. -/
theorem edit (h : c.Follows writes) (edit : Edit) :
    ∃ c', c.edit edit = .ok c' ∧ c'.emitter = c.emitter ∧
      c'.Follows fun uri => edit.track uri (writes uri) := by
  cases edit with
  | write uri e =>
      refine ⟨c.accept uri e, ?_, accept_emitter c uri e, h.accept uri e⟩
      rw [Collection.edit, write_of_alive h.alive, Collection.accept]
      by_cases hstale : c.isStale uri e = true
      · rw [if_pos hstale, if_pos hstale]
        rfl
      · rw [if_neg hstale, if_neg hstale]
        rfl
  | delete uri =>
      refine ⟨c.forget uri, ?_, rfl, h.forget uri⟩
      rw [Collection.edit, delete_of_alive h.alive]
      by_cases hcontains : c.entries.contains uri = true
      · rw [if_pos hcontains]
        rfl
      · rw [if_neg hcontains, forget_of_not_contains (Bool.not_eq_true _ ▸ hcontains)]
        rfl
  | clear => exact ⟨c.clear, rfl, rfl, of_empty h.alive rfl⟩

/-- So do any number of edits. -/
theorem editAll (h : c.Follows writes) (edits : List Edit) :
    ∃ c', c.editAll edits = .ok c' ∧ c'.emitter = c.emitter ∧
      c'.Follows fun uri => edits.foldl (Edit.track uri) (writes uri) := by
  induction edits generalizing c writes with
  | nil => exact ⟨c, rfl, rfl, h⟩
  | cons edit edits ih =>
      obtain ⟨c₁, hedit, hemitter₁, h₁⟩ := h.edit edit
      obtain ⟨c₂, hedits, hemitter₂, h₂⟩ := ih h₁
      refine ⟨c₂, ?_, hemitter₂.trans hemitter₁, h₂⟩
      rw [Collection.editAll, hedit]
      exact hedits

end Follows

end Collection

/-! ### Writes of distinct versions -/

/-- The edits that write results, each for a document and a version of it. -/
def Edit.ofResults (results : List (String × Int × List Diagnostic)) : List Edit :=
  results.map fun r => .write r.1 ⟨some r.2.1, r.2.2⟩

/-- The results for a document are the writes to it. -/
theorem writesTo_ofResults (uri : String) (results : List (String × Int × List Diagnostic)) :
    writesTo uri (Edit.ofResults results) =
      (results.filter fun r => r.1 = uri).map fun r => ⟨some r.2.1, r.2.2⟩ := by
  have hfold : ∀ before : List Entry, (Edit.ofResults results).foldl (Edit.track uri) before =
      before ++ (results.filter fun r => r.1 = uri).map fun r => ⟨some r.2.1, r.2.2⟩ := by
    induction results with
    | nil => simp [Edit.ofResults]
    | cons r results ih =>
        intro before
        rw [Edit.ofResults, List.map_cons, List.foldl_cons, ← Edit.ofResults, ih]
        by_cases hr : r.1 = uri <;> simp [Edit.track, hr]
  exact hfold []

theorem Stands.unique_of_results {results results' : List (String × Int × List Diagnostic)}
    {uri : String} {stored stored' : Option Entry} (hperm : results.Perm results')
    (hdistinct : results.Pairwise fun r r' => r.1 = r'.1 → r.2.1 ≠ r'.2.1)
    (h : Stands (writesTo uri (Edit.ofResults results)) stored)
    (h' : Stands (writesTo uri (Edit.ofResults results')) stored') : stored = stored' := by
  rw [writesTo_ofResults] at h h'
  refine unique_of_perm ((hperm.filter _).map _) (fun e he => ?_) ?_ h h'
  · obtain ⟨r, -, rfl⟩ := List.mem_map.1 he
    exact ⟨r.2.1, rfl⟩
  · rw [List.pairwise_map, List.pairwise_filter]
    refine hdistinct.imp fun {r r'} hne hr hr' heq => ?_
    have hsame : r.1 = r'.1 := (of_decide_eq_true hr).trans (of_decide_eq_true hr').symm
    exact hne hsame (Option.some.inj heq)

/-! ### Late results -/

namespace Collection

/-- **Late results cannot regress a collection.**  Whatever is asked of it from the start on, the
entry of a document is the one that the writes to it since its last deletion call for.  A versioned
write is answered with `true` exactly if no recent one has a larger version; with observers it is
stored and they are told before the answer, and a stale one changes nothing.  Results of distinct
versions leave the same entries in whatever order they arrive. -/
theorem late_writes_cannot_regress {σ : Type} {c : Collection} (halive : c.disposed = false)
    (hempty : c.entries = .empty) :
    (∀ edits, ∃ c', c.editAll edits = .ok c' ∧ c'.disposed = false ∧ ∀ uri,
      (writesTo uri edits = [] → c'.entries.find? uri = none) ∧
      (∀ e, (writesTo uri edits).getLast? = some e → e.version = none →
        c'.entries.find? uri = some e) ∧
      (∀ e v, (writesTo uri edits).getLast? = some e → e.version = some v →
        ∃ top w, c'.entries.find? uri = some top ∧ Tops (recent (writesTo uri edits)) top w) ∧
      ∀ (client : Client σ) (h : Host σ) (id : CollectionId), h.collection? id = some c' →
        ∀ v found,
          (c.emitter.listeners = [] →
            ((HostM.writeEntry client id uri ⟨some v, found⟩ h).1 = .ok true ↔
              ¬∃ x ∈ recent (writesTo uri edits), ∃ u, x.version = some u ∧ v < u)) ∧
          ((∃ x ∈ recent (writesTo uri edits), ∃ u, x.version = some u ∧ v < u) →
            HostM.writeEntry client id uri ⟨some v, found⟩ h = (.ok false, h)) ∧
          ((¬∃ x ∈ recent (writesTo uri edits), ∃ u, x.version = some u ∧ v < u) →
            HostM.writeEntry client id uri ⟨some v, found⟩ h =
              (do HostM.publish client id uri; return true : HostM σ Bool)
                (h.setCollection id
                  { c' with entries := c'.entries.insert uri ⟨some v, found⟩ }))) ∧
    ∀ results results' : List (String × Int × List Diagnostic), results.Perm results' →
      results.Pairwise (fun r r' => r.1 = r'.1 → r.2.1 ≠ r'.2.1) →
      ∃ c₁ c₂, c.editAll (Edit.ofResults results) = .ok c₁ ∧
        c.editAll (Edit.ofResults results') = .ok c₂ ∧
        ∀ uri, c₁.entries.find? uri = c₂.entries.find? uri := by
  have hstart := Follows.of_empty halive hempty
  constructor
  · intro edits
    obtain ⟨c', hrun, hemitter, hfollows⟩ := hstart.editAll edits
    refine ⟨c', hrun, hfollows.alive, fun uri => ?_⟩
    have hstands : Stands (writesTo uri edits) (c'.entries.find? uri) := hfollows.stands uri
    refine ⟨fun hnil => Stands.of_nil (hnil ▸ hstands), fun e => hstands.of_last_unversioned,
      fun e v => hstands.of_last_versioned, fun client h id hc v found => ?_⟩
    have hstale : c'.isStale uri ⟨some v, found⟩ = true ↔
        ∃ x ∈ recent (writesTo uri edits), ∃ u, x.version = some u ∧ v < u :=
      hfollows.isStale_iff_exists_recent rfl
    rw [← hstale, ← hemitter]
    refine ⟨fun hunobserved => ?_, HostM.writeEntry_of_stale client hc hfollows.alive,
      HostM.writeEntry_of_not_stale client hc hfollows.alive⟩
    rw [HostM.writeEntry_of_unobserved client hc hfollows.alive hunobserved]
    simp
  · intro results results' hperm hdistinct
    obtain ⟨c₁, hrun₁, -, hfollows₁⟩ := hstart.editAll (Edit.ofResults results)
    obtain ⟨c₂, hrun₂, -, hfollows₂⟩ := hstart.editAll (Edit.ofResults results')
    refine ⟨c₁, c₂, hrun₁, hrun₂, fun uri => ?_⟩
    exact Stands.unique_of_results hperm hdistinct (hfollows₁.stands uri) (hfollows₂.stands uri)

theorem late_writes_cannot_regress_swapped :
    ∃ (c₁ c₂ : Collection) (client : Client Unit) (h : Host Unit) (id : CollectionId),
      ({ name := "edl" } : Collection).editAll
        (Edit.ofResults [("a", 2, []), ("b", 1, []), ("a", 1, [])]) = .ok c₁ ∧
      ({ name := "edl" } : Collection).editAll
        (Edit.ofResults [("a", 1, []), ("b", 1, []), ("a", 2, [])]) = .ok c₂ ∧
      (∀ uri, c₁.entries.find? uri = c₂.entries.find? uri) ∧
      h.collection? id = some c₂ ∧
      HostM.writeEntry client id "a" ⟨some 1, []⟩ h = (.ok false, h) := by
  let c : Collection := { name := "edl" }
  let late : List (String × Int × List Diagnostic) := [("a", 2, []), ("b", 1, []), ("a", 1, [])]
  let early : List (String × Int × List Diagnostic) := [("a", 1, []), ("b", 1, []), ("a", 2, [])]
  let client : Client Unit := .idle
  obtain ⟨hruns, horder⟩ := late_writes_cannot_regress (σ := Unit) (c := c) rfl rfl
  obtain ⟨c₁, c₂, hrun₁, hrun₂, hsame⟩ :=
    horder late early (List.reverse_perm early) (by simp [late])
  obtain ⟨c', hrun, -, hentries⟩ := hruns (Edit.ofResults early)
  obtain rfl : c' = c₂ := Except.ok.inj (hrun.symm.trans hrun₂)
  let h : Host Unit :=
    { workspace := { configuration := .empty }, collections := ⟨[c']⟩, client := () }
  have hc : h.collection? ⟨0⟩ = some c' := rfl
  refine ⟨c₁, c', client, h, ⟨0⟩, hrun₁, hrun₂, hsame, hc, ?_⟩
  -- version two was written after the first version, and nothing was deleted
  obtain ⟨-, -, -, hanswer⟩ := hentries "a"
  refine (hanswer client h ⟨0⟩ hc 1 []).2.1 ⟨⟨some 2, []⟩, ?_, 2, rfl, by decide⟩
  rw [writesTo_ofResults]
  simp [early, recent]

end Collection

end Edl
