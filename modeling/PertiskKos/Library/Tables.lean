import Mathlib.Data.List.AList

/-!
# Tables

A table maps each key to at most one row.  The lemmas say what is in a table after a row is
written or deleted, or after all are changed in place, and how many of its rows then satisfy
a predicate.
-/

namespace PertiskKos.Tables

variable {Key Row : Type*} [DecidableEq Key]
variable {table : AList fun _ : Key => Row} {key : Key} {row : Row}

/-- What is in a table after a row was written. -/
theorem lookup_insert_cases {key' : Key} {row' : Row}
    (hrow : (table.insert key row).lookup key' = some row') :
    key' = key ∧ row' = row ∨ key' ≠ key ∧ table.lookup key' = some row' := by
  by_cases hsame : key' = key
  · rw [hsame, AList.lookup_insert] at hrow
    exact .inl ⟨hsame, (Option.some.inj hrow).symm⟩
  · rw [AList.lookup_insert_ne hsame] at hrow
    exact .inr ⟨hsame, hrow⟩

/-- What is in a table after a row was deleted. -/
theorem lookup_erase_cases {key' : Key} {row' : Row}
    (hrow : (table.erase key).lookup key' = some row') :
    key' ≠ key ∧ table.lookup key' = some row' := by
  by_cases hsame : key' = key
  · rw [hsame, AList.lookup_erase] at hrow
    cases hrow
  · rw [AList.lookup_erase_ne hsame] at hrow
    exact ⟨hsame, hrow⟩

/-- A table with every row changed in place. -/
def mapRows (change : Row → Row) (table : AList fun _ : Key => Row) :
    AList fun _ : Key => Row where
  entries := table.entries.map fun entry => ⟨entry.1, change entry.2⟩
  nodupKeys := by
    have hkeys : (table.entries.map fun entry =>
        (⟨entry.1, change entry.2⟩ : Sigma fun _ : Key => Row)).keys = table.entries.keys := by
      rw [List.keys, List.map_map]
      rfl
    rw [List.NodupKeys, hkeys]
    exact table.nodupKeys

theorem lookup_mapRows (change : Row → Row) :
    (mapRows change table).lookup key = (table.lookup key).map change :=
  @List.dlookup_map₂ Key _ (fun _ => Row) (fun _ => Row) table.entries (fun _ => change) key

/-- How many rows satisfy `good`. -/
def count (good : Row → Bool) (table : AList fun _ : Key => Row) : Nat :=
  table.entries.countP fun entry => good entry.2

variable {good : Row → Bool}

theorem erase_of_lookup_none (hnew : table.lookup key = none) : table.erase key = table := by
  have hnot : key ∉ table.entries.keys := fun hmem =>
    AList.lookup_eq_none.mp hnew (AList.mem_keys.mpr hmem)
  exact AList.ext (List.kerase_of_notMem_keys hnot)

theorem count_insert : count good (table.insert key row) =
    count good (table.erase key) + if good row then 1 else 0 := by
  rw [count, AList.entries_insert, List.countP_cons]
  rfl

/-- A row that is there counts once. -/
theorem count_of_lookup (hrow : table.lookup key = some row) :
    count good table = count good (table.erase key) + if good row then 1 else 0 := by
  have hkey : key ∈ table.entries.keys :=
    AList.mem_keys.mp (AList.lookup_isSome.mp (Option.isSome_of_eq_some hrow))
  obtain ⟨row', before, after, -, hentries, herased⟩ := List.exists_of_kerase hkey
  have hsame : table.lookup key = some row' := by
    apply AList.mem_lookup_iff.mpr
    rw [hentries]
    exact List.mem_append_right _ List.mem_cons_self
  obtain rfl : row = row' := Option.some.inj (hrow.symm.trans hsame)
  have hrest : (table.erase key).entries = before ++ after := herased
  rw [count, count, hrest, hentries, List.countP_append, List.countP_append, List.countP_cons]
  dsimp only
  omega

theorem count_insert_new (hnew : table.lookup key = none) :
    count good (table.insert key row) = count good table + if good row then 1 else 0 := by
  rw [count_insert, erase_of_lookup_none hnew]

/-- A row is written over another. -/
theorem count_insert_over {row' : Row} (hrow : table.lookup key = some row) :
    count good (table.insert key row') + (if good row then 1 else 0) =
      count good table + if good row' then 1 else 0 := by
  rw [count_insert, count_of_lookup hrow]
  omega

theorem count_pos_iff :
    0 < count good table ↔ ∃ key row, table.lookup key = some row ∧ good row = true := by
  rw [count, List.countP_pos_iff]
  constructor
  · rintro ⟨entry, hentry, hgood⟩
    exact ⟨entry.1, entry.2, AList.mem_lookup_iff.mpr hentry, hgood⟩
  · rintro ⟨key, row, hrow, hgood⟩
    exact ⟨⟨key, row⟩, AList.mem_lookup_iff.mp hrow, hgood⟩

end PertiskKos.Tables
