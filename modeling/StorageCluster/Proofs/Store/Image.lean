import StorageCluster.Proofs.SortedMap
import StorageCluster.Proofs.Store.Paths
import StorageCluster.Proofs.Store.Scans
import StorageCluster.Store.Memory

/-!
# Rows under flat keys

A flat store shows the rows of a store in memory when it has one entry for each of their columns and
no others. Rows are known by their columns as long as each of them has one. Creating, deleting and
updating a row whose key and columns hold no slash changes both stores alike.
-/
namespace StorageCluster

/-- A row that can be kept under flat keys: it has columns, and none of them holds a slash. -/
structure Row.Flat (row : Row) : Prop where
  columns : ∀ column ∈ row.keys, IsPart column
  nonempty : row.entries ≠ []

instance (row : Row) : Decidable row.Flat :=
  decidable_of_iff ((∀ column ∈ row.keys, IsPart column) ∧ row.entries ≠ [])
    ⟨fun h => ⟨h.1, h.2⟩, fun h => ⟨h.columns, h.nonempty⟩⟩

/-- Rows that can be kept under flat keys. -/
def Rows.Flat (rows : Rows) : Prop :=
  ∀ key row, rows.find? key = some row → IsPart key ∧ row.Flat

/-- A change that can be made under flat keys. -/
def Change.Flat : Change → Prop
  | .create _ key row => IsPart key ∧ Row.Flat row
  | .delete _ key => IsPart key
  | .update _ key column _ => IsPart key ∧ IsPart column

instance : DecidablePred Change.Flat
  | .create _ key row => inferInstanceAs (Decidable (IsPart key ∧ Row.Flat row))
  | .delete _ key => inferInstanceAs (Decidable (IsPart key))
  | .update _ key column _ => inferInstanceAs (Decidable (IsPart key ∧ IsPart column))

namespace Row

theorem Flat.exists_column {row : Row} (h : row.Flat) :
    ∃ column value, IsPart column ∧ row.find? column = some value := by
  obtain ⟨⟨column, value⟩, hm⟩ := List.exists_mem_of_ne_nil _ h.nonempty
  exact ⟨column, value, h.columns column (List.mem_map.2 ⟨(column, value), hm, rfl⟩),
    SortedMap.find?_of_mem hm⟩

/-- A column that is set beside columns that hold no slash. -/
theorem Flat.insert {row : Row} {column : String} (h : ∀ other ∈ row.keys, IsPart other)
    (hc : IsPart column) (value : String) : Row.Flat (row.insert column value) := by
  constructor
  · intro other ho
    obtain ⟨v, hv⟩ := SortedMap.mem_keys_iff.1 ho
    rw [SortedMap.find?_insert_eq_ite] at hv
    split at hv
    next he => exact he ▸ hc
    next => exact h other (SortedMap.mem_keys_iff.2 ⟨v, hv⟩)
  · intro hn
    have hs := SortedMap.find?_insert_self row column value
    simp [SortedMap.find?, hn, SortedMap.lookup] at hs

end Row

namespace Rows

/-- A column of a row, if both are there. -/
def column? (rows : Rows) (key column : String) : Option String :=
  (rows.find? key).bind (·.find? column)

theorem column?_insert (rows : Rows) (key other column : String) (row : Row) :
    column? (rows.insert key row) other column =
      if other = key then row.find? column else rows.column? other column := by
  rw [column?, SortedMap.find?_insert_eq_ite]
  split <;> rfl

theorem column?_erase (rows : Rows) (key other column : String) :
    column? (rows.erase key) other column =
      if other = key then none else rows.column? other column := by
  rw [column?, SortedMap.find?_erase_eq_ite]
  split <;> rfl

/-- Setting a column of a row sets that column and no other. -/
theorem column?_addColumn (rows : Rows) (key column value other column' : String) :
    column? (KeyValueStore.addColumn rows key column value) other column' =
      if other = key ∧ column' = column then some value else rows.column? other column' := by
  rw [KeyValueStore.addColumn, SortedMap.upsert, column?_insert, SortedMap.find?_insert_eq_ite]
  by_cases hk : other = key
  · subst hk
    cases hr : rows.find? other <;> simp [column?, hr]
  · simp [hk]

namespace Flat

variable {rows : Rows}

theorem empty : Rows.Flat .empty := by
  intro key row h
  cases h

theorem insert (h : rows.Flat) {key : String} {row : Row} (hk : IsPart key) (hr : row.Flat) :
    Rows.Flat (rows.insert key row) := by
  intro other row' ho
  rw [SortedMap.find?_insert_eq_ite] at ho
  split at ho
  next he =>
    cases ho
    exact ⟨he ▸ hk, hr⟩
  next => exact h other row' ho

theorem erase (h : rows.Flat) (key : String) : Rows.Flat (rows.erase key) := by
  intro other row ho
  rw [SortedMap.find?_erase] at ho
  split at ho
  next => cases ho
  next => exact h other row ho

theorem addColumn (h : rows.Flat) {key column : String} (hk : IsPart key) (hc : IsPart column)
    (value : String) : Rows.Flat (KeyValueStore.addColumn rows key column value) := by
  refine h.insert hk (Row.Flat.insert (fun other ho => ?_) hc value)
  cases hr : rows.find? key with
  | none => simp [hr, SortedMap.keys, SortedMap.empty] at ho
  | some row => exact (h key row hr).2.columns other (by simpa [hr] using ho)

/-- A row is there when one of its columns is. -/
theorem find?_of_column (h : rows.Flat) {others : Rows}
    (hsame : ∀ key column, IsPart key → IsPart column →
      rows.column? key column = others.column? key column) {key : String} {row : Row}
    (hr : rows.find? key = some row) : ∃ other, others.find? key = some other := by
  obtain ⟨hk, hrow⟩ := h key row hr
  obtain ⟨column, value, hc, hv⟩ := hrow.exists_column
  have hs := hsame key column hk hc
  rw [column?, hr, Option.bind_some, hv] at hs
  obtain ⟨other, ho, _⟩ := Option.bind_eq_some_iff.1 hs.symm
  exact ⟨other, ho⟩

/-- Rows are known by their columns. -/
theorem ext (h : rows.Flat) {others : Rows} (ho : others.Flat)
    (hsame : ∀ key column, IsPart key → IsPart column →
      rows.column? key column = others.column? key column) : rows = others := by
  refine SortedMap.eq_of_find?_of_lawful fun key => ?_
  cases hr : rows.find? key with
  | none =>
    cases hn : others.find? key with
    | none => rfl
    | some other =>
      obtain ⟨row, hrow⟩ := ho.find?_of_column (fun k c hk hc => (hsame k c hk hc).symm) hn
      rw [hr] at hrow
      cases hrow
  | some row =>
    obtain ⟨other, hn⟩ := h.find?_of_column hsame hr
    obtain ⟨hk, hrow⟩ := h key row hr
    obtain ⟨_, hother⟩ := ho key other hn
    rw [hn]
    refine congrArg some (SortedMap.eq_of_find?_of_lawful fun column => ?_)
    by_cases hc : IsPart column
    · have hs := hsame key column hk hc
      simpa [column?, hr, hn] using hs
    · have hgone {r : Row} (hf : r.Flat) : r.find? column = none := by
        by_contra hne
        obtain ⟨value, hv⟩ := Option.ne_none_iff_exists'.1 hne
        exact hc (hf.columns column (SortedMap.mem_keys_iff.2 ⟨value, hv⟩))
      rw [hgone hrow, hgone hother]

end Flat

end Rows

namespace Table

theorem compare_eq_iff {a b : Table} : compare a b = .eq ↔ a = b := by
  cases a <;> cases b <;> decide

end Table

namespace MemoryStore

variable (s : MemoryStore)

theorem rows_setRows (table other : Table) (rows : Rows) :
    (s.setRows table rows).rows other = if other = table then rows else s.rows other := by
  by_cases h : other = table
  · simp [setRows, MemoryStore.rows, SortedMap.find?_insert, h, Std.ReflCmp.compare_self]
  · simp [setRows, MemoryStore.rows, SortedMap.find?_insert, h, Table.compare_eq_iff]

end MemoryStore

namespace KeyValueStore

/-- A flat store has one entry for each column of a store in memory, and no others. -/
structure Shows (s : KeyValueStore) (m : MemoryStore) : Prop where
  keys : ∀ text ∈ s.entries.keys, ∃ table key column, IsPart key ∧ IsPart column ∧
    text = path table key column
  columns : ∀ table key column, IsPart key → IsPart column →
    s.entries.find? (path table key column) = (m.rows table).column? key column
  flat : ∀ table, (m.rows table).Flat

namespace Shows

variable {s : KeyValueStore} {m : MemoryStore}

theorem empty : KeyValueStore.empty.Shows .empty := by
  constructor
  · intro text h
    cases h
  · intro table key column _ _
    rfl
  · intro table
    exact .empty

/-- Both know of the same rows. -/
theorem hasRow (h : s.Shows m) (table : Table) {key : String} (hk : IsPart key) :
    s.hasRow table key = (m.rows table).contains key := by
  rw [Bool.eq_iff_iff, hasRow_eq_any, List.any_eq_true]
  constructor
  · rintro ⟨text, ht, hs⟩
    obtain ⟨other, key', column, hk', hc, rfl⟩ := h.keys text ht
    obtain ⟨rfl, rfl⟩ := (startsWith_rowRoot hk hk').1 hs
    obtain ⟨value, hv⟩ := SortedMap.mem_keys_iff.1 ht
    rw [h.columns table key column hk hc] at hv
    obtain ⟨row, hr, _⟩ := Option.bind_eq_some_iff.1 hv
    exact SortedMap.contains_of_find? hr
  · intro hm
    obtain ⟨row, hr⟩ := Option.isSome_iff_exists.1 hm
    obtain ⟨_, hflat⟩ := h.flat table key row hr
    obtain ⟨column, value, hc, hv⟩ := hflat.exists_column
    have he : s.entries.find? (path table key column) = some value := by
      rw [h.columns table key column hk hc, Rows.column?, hr, Option.bind_some, hv]
    exact ⟨path table key column, SortedMap.mem_keys_iff.2 ⟨value, he⟩,
      (startsWith_rowRoot hk hk).2 ⟨rfl, rfl⟩⟩

/-- The rows of one table change: in the flat store only entries below its root do. -/
theorem setRows (h : s.Shows m) {table : Table} {rows : Rows} (hrows : rows.Flat)
    {entries : SortedMap String String}
    (hkeys : ∀ text ∈ entries.keys, text ∈ s.entries.keys ∨ ∃ key column, IsPart key ∧
      IsPart column ∧ text = path table key column)
    (hown : ∀ key column, IsPart key → IsPart column →
      entries.find? (path table key column) = rows.column? key column)
    (hother : ∀ other key column, other ≠ table → IsPart key →
      entries.find? (path other key column) = s.entries.find? (path other key column)) :
    Shows ⟨entries⟩ (m.setRows table rows) := by
  refine ⟨?_, ?_, ?_⟩
  · intro text ht
    rcases hkeys text ht with ht | ⟨key, column, hk, hc, rfl⟩
    · exact h.keys text ht
    · exact ⟨table, key, column, hk, hc, rfl⟩
  · intro other key column hk hc
    rw [MemoryStore.rows_setRows]
    by_cases ht : other = table
    · subst ht
      rw [if_pos rfl, hown key column hk hc]
    · rw [if_neg ht, hother other key column ht hk, h.columns other key column hk hc]
  · intro other
    rw [MemoryStore.rows_setRows]
    split
    next => exact hrows
    next => exact h.flat other

theorem create (h : s.Shows m) {table : Table} {key : String} {row : Row} (hk : IsPart key)
    (hrow : row.Flat) (hnew : (m.rows table).contains key = false) :
    Shows ⟨row.entries.foldl (fun entries e => entries.insert (rowRoot table key ++ e.1) e.2)
      s.entries⟩ (m.setRows table ((m.rows table).insert key row)) := by
  have hinj : Function.Injective (path table key) := fun _ _ he => (path_inj hk hk he).2.2
  have hnone : (m.rows table).find? key = none := by simpa [SortedMap.contains] using hnew
  have hkept (other : Table) (key' column : String) (hne : ¬(other = table ∧ key' = key))
      (hk' : IsPart key') :
      (row.entries.foldl (fun entries e => entries.insert (path table key e.1) e.2)
        s.entries).find? (path other key' column) = s.entries.find? (path other key' column) := by
    refine SortedMap.find?_foldl_insert_of_ne row.entries s.entries fun i he => ?_
    obtain ⟨ht, hs, _⟩ := path_inj hk' hk he
    exact hne ⟨ht, hs⟩
  refine h.setRows ((h.flat table).insert hk hrow) ?_ ?_ ?_
  · intro text ht
    obtain ⟨value, hv⟩ := SortedMap.mem_keys_iff.1 ht
    by_cases hp : ∃ column, text = path table key column
    · obtain ⟨column, rfl⟩ := hp
      have hf := (SortedMap.find?_foldl_insert hinj row s.entries column).symm.trans hv
      rcases Option.or_eq_some_iff.1 hf with hf | ⟨_, hf⟩
      · exact .inr ⟨key, column, hk,
          hrow.columns column (SortedMap.mem_keys_iff.2 ⟨value, hf⟩), rfl⟩
      · exact .inl (SortedMap.mem_keys_iff.2 ⟨value, hf⟩)
    · have hf := SortedMap.find?_foldl_insert_of_ne (f := path table key) row.entries s.entries
        fun column he => hp ⟨column, he⟩
      exact .inl (SortedMap.mem_keys_iff.2 ⟨value, hf ▸ hv⟩)
  · intro key' column hk' hc
    rw [Rows.column?_insert]
    by_cases hs : key' = key
    · subst hs
      have hf := SortedMap.find?_foldl_insert hinj row s.entries column
      rw [h.columns table key' column hk hc, Rows.column?, hnone, Option.bind_none,
        Option.or_none] at hf
      rw [if_pos rfl]
      exact hf
    · rw [if_neg hs, ← h.columns table key' column hk' hc]
      exact hkept table key' column (fun hb => hs hb.2) hk'
  · intro other key' column hne hk'
    exact hkept other key' column (fun hb => hne hb.1) hk'

theorem delete (h : s.Shows m) (table : Table) {key : String} (hk : IsPart key) :
    Shows ⟨((s.scan (rowRoot table key)).map (·.1)).foldl SortedMap.erase s.entries⟩
      (m.setRows table ((m.rows table).erase key)) := by
  rw [foldl_erase_scan]
  have hgone (key' column : String) (hk' : IsPart key') :
      startsWith (rowRoot table key) (path table key' column) = decide (key' = key) := by
    rw [Bool.eq_iff_iff, startsWith_rowRoot hk hk', decide_eq_true_iff]
    exact ⟨fun hb => hb.2.symm, fun he => ⟨rfl, he.symm⟩⟩
  refine h.setRows ((h.flat table).erase key) ?_ ?_ ?_
  · intro text ht
    obtain ⟨value, hv⟩ := SortedMap.mem_keys_iff.1 ht
    rw [SortedMap.find?_filter_keys, Option.ite_none_right_eq_some] at hv
    exact .inl (SortedMap.mem_keys_iff.2 ⟨value, hv.2⟩)
  · intro key' column hk' hc
    rw [SortedMap.find?_filter_keys, Rows.column?_erase, hgone key' column hk',
      h.columns table key' column hk' hc]
    by_cases hs : key' = key <;> simp [hs]
  · intro other key' column hne hk'
    have hkeep : startsWith (rowRoot table key) (path other key' column) = false := by
      rw [Bool.eq_false_iff]
      exact fun hs => hne ((startsWith_rowRoot hk hk').1 hs).1.symm
    simp [SortedMap.find?_filter_keys, hkeep]

theorem update (h : s.Shows m) {table : Table} {key column : String} {row : Row}
    (hk : IsPart key) (hc : IsPart column) (hr : (m.rows table).find? key = some row)
    (value : String) :
    Shows ⟨s.entries.insert (rowRoot table key ++ column) value⟩
      (m.setRows table ((m.rows table).insert key (row.insert column value))) := by
  have hrow : Row.Flat (row.insert column value) :=
    Row.Flat.insert (h.flat table key row hr).2.columns hc value
  have hset (other : Table) (key' column' : String) (hk' : IsPart key') :
      (s.entries.insert (path table key column) value).find? (path other key' column') =
        if other = table ∧ key' = key ∧ column' = column then some value
        else s.entries.find? (path other key' column') := by
    rw [SortedMap.find?_insert_eq_ite]
    exact if_congr ⟨path_inj hk' hk, fun ⟨ht, hb, hc⟩ => by rw [ht, hb, hc]⟩ rfl rfl
  refine h.setRows ((h.flat table).insert hk hrow) ?_ ?_ ?_
  · intro text ht
    obtain ⟨v, hv⟩ := SortedMap.mem_keys_iff.1 ht
    rw [SortedMap.find?_insert_eq_ite] at hv
    split at hv
    next he => exact .inr ⟨key, column, hk, hc, he⟩
    next => exact .inl (SortedMap.mem_keys_iff.2 ⟨v, hv⟩)
  · intro key' column' hk' hc'
    have hcolumn := h.columns table key' column' hk' hc'
    refine (hset table key' column' hk').trans ?_
    rw [Rows.column?_insert, SortedMap.find?_insert_eq_ite]
    by_cases hs : key' = key
    · subst hs
      simp [hcolumn, Rows.column?, hr]
    · simp [hs, hcolumn]
  · intro other key' column' hne hk'
    refine (hset other key' column' hk').trans ?_
    rw [if_neg fun hb => hne hb.1]

end Shows

end KeyValueStore

end StorageCluster
