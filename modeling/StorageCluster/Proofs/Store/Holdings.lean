import StorageCluster.Proofs.Store.Engines
import StorageCluster.Proofs.Store.Rows

/-!
# What a store holds

A store holds a transaction when its rows are those that the transaction creates, in any order. A
batch of changes brings a store from one transaction to another: creating rows adds them, setting a
column exchanges the row of one entity for that of the changed entity.
-/
namespace StorageCluster

theorem bind_ok_iff {ε α β : Type} {x : Except ε α} {f : α → Except ε β} {b : β} :
    x >>= f = .ok b ↔ ∃ a, x = .ok a ∧ f a = .ok b := by
  cases x <;> simp [bind, Except.bind]

/-- The row that a change creates in a table, under its key. -/
def Change.record? (table : Table) : Change → Option (String × Row)
  | .create other key row => if other = table then some (key, row) else none
  | .delete .. => none
  | .update .. => none

/-- The rows that a transaction creates in a table. -/
def Transaction.records (t : Transaction) (table : Table) : List (String × Row) :=
  t.filterMap (Change.record? table)

/-- The rows of a store are those that a transaction creates. -/
def MemoryStore.Holds (m : MemoryStore) (t : Transaction) : Prop :=
  ∀ table, (m.rows table).entries.Perm (t.records table)

/-- A change that creates a row. -/
def Change.IsNew (change : Change) : Prop := ∃ table key row, change = .create table key row

theorem Change.ofNew_isNew {α : Type} [Stored α] (a : α) : (Change.ofNew a).IsNew :=
  ⟨Stored.table α, Stored.key a, Stored.row a, rfl⟩

namespace MemoryStore

variable {m m' : MemoryStore} {t : Transaction} {table : Table} {key : String} {row : Row}

theorem apply_create (h : m.apply (.create table key row) = .ok m') :
    (m.rows table).contains key = false ∧
      m' = m.setRows table ((m.rows table).insert key row) := by
  simp only [apply] at h
  split at h
  next => cases h
  next hnew =>
    cases h
    exact ⟨Bool.eq_false_iff.2 hnew, rfl⟩

namespace Holds

theorem empty : MemoryStore.empty.Holds [] := fun _ => .refl _

theorem perm {t' : Transaction} (h : m.Holds t) (hp : t.Perm t') : m.Holds t' :=
  fun table => (h table).trans (hp.filterMap _)

theorem create (h : m.Holds t) (ha : m.apply (.create table key row) = .ok m') :
    m'.Holds (.create table key row :: t) := by
  obtain ⟨hnew, rfl⟩ := apply_create ha
  intro other
  rw [rows_setRows, Transaction.records, List.filterMap_cons, Change.record?]
  by_cases ho : other = table
  · subst ho
    rw [if_pos rfl, if_pos rfl]
    exact (SortedMap.entries_insert_perm row hnew).trans ((h other).cons _)
  · rw [if_neg ho, if_neg (Ne.symm ho)]
    exact h other

/-- A key that can be created is in use by no row. -/
theorem fresh (h : m.Holds t) (ha : m.apply (.create table key row) = .ok m') (other : Row) :
    .create table key other ∉ t := by
  intro hm
  have hr : (key, other) ∈ t.records table :=
    List.mem_filterMap.2 ⟨.create table key other, hm, if_pos rfl⟩
  have hc : (m.rows table).contains key = true :=
    SortedMap.contains_of_find? (SortedMap.find?_of_mem ((h table).mem_iff.2 hr))
  rw [(apply_create ha).1] at hc
  cases hc

theorem creates {news : Transaction} (h : m.Holds t) (hnews : ∀ change ∈ news, change.IsNew)
    (ha : news.foldlM apply m = .ok m') : m'.Holds (news ++ t) := by
  induction news generalizing m t with
  | nil =>
    cases ha
    exact h
  | cons change rest ih =>
    obtain ⟨table, key, row, rfl⟩ := hnews change List.mem_cons_self
    rw [List.foldlM_cons] at ha
    obtain ⟨mid, hc, ha⟩ := bind_ok_iff.1 ha
    have hrest := ih (h.create hc) (fun c hm => hnews c (List.mem_cons_of_mem _ hm)) ha
    exact hrest.perm List.perm_middle

theorem update {column value : String} (h : m.Holds (.create table key row :: t))
    (ha : m.apply (.update table key column value) = .ok m') :
    m'.Holds (.create table key (row.insert column value) :: t) := by
  have hrows : (m.rows table).entries.Perm ((key, row) :: t.records table) := by
    have ht := h table
    rwa [Transaction.records, List.filterMap_cons, Change.record?, if_pos rfl] at ht
  have hr : (m.rows table).find? key = some row :=
    SortedMap.find?_of_mem (hrows.mem_iff.2 List.mem_cons_self)
  obtain rfl : m' = m.setRows table ((m.rows table).insert key (row.insert column value)) := by
    simp only [apply, hr, Except.ok.injEq] at ha
    exact ha.symm
  intro other
  rw [rows_setRows, Transaction.records, List.filterMap_cons, Change.record?]
  by_cases ho : other = table
  · subst ho
    rw [if_pos rfl, if_pos rfl]
    obtain ⟨k, before, after, hsplit, hk, _, hinsert⟩ := SortedMap.exists_entries_split hr
    obtain rfl := Std.compare_eq_iff_eq.1 hk
    rw [hinsert]
    rw [hsplit] at hrows
    have hrest := (List.perm_middle.symm.trans hrows).cons_inv
    exact List.perm_middle.trans (hrest.cons _)
  · rw [if_neg ho, if_neg (Ne.symm ho)]
    have hother := h other
    rwa [Transaction.records, List.filterMap_cons, Change.record?, if_neg (Ne.symm ho)] at hother

end Holds

end MemoryStore

/-- Applied to a store that holds `before`, the changes make it hold `after`. -/
structure Transaction.Brings (changes before after : Transaction) : Prop where
  flat : ∀ change ∈ changes, change.Flat
  holds : ∀ m m' : MemoryStore, m.Holds before → changes.foldlM MemoryStore.apply m = .ok m' →
    m'.Holds after

namespace Transaction.Brings

variable {changes before after t : Transaction}

theorem nothing (t : Transaction) : Brings [] t t := by
  refine ⟨by simp, fun m m' h ha => ?_⟩
  cases ha
  exact h

theorem trans {more further : Transaction} (h : changes.Brings before after)
    (h' : more.Brings after further) : Brings (changes ++ more) before further := by
  refine ⟨fun c hc => ?_, fun m m' hm ha => ?_⟩
  · exact (List.mem_append.1 hc).elim (h.flat c) (h'.flat c)
  · rw [List.foldlM_append] at ha
    obtain ⟨mid, hc, ha⟩ := bind_ok_iff.1 ha
    exact h'.holds mid m' (h.holds m mid hm hc) ha

theorem perm {before' after' : Transaction} (h : changes.Brings before after)
    (hb : before'.Perm before) (ha : after.Perm after') : changes.Brings before' after' :=
  ⟨h.flat, fun m m' hm hf => (h.holds m m' (hm.perm hb) hf).perm ha⟩

theorem news (hnew : ∀ change ∈ changes, change.IsNew) (hflat : ∀ change ∈ changes, change.Flat) :
    changes.Brings t (changes ++ t) :=
  ⟨hflat, fun _ _ hm ha => hm.creates hnew ha⟩

theorem new {α : Type} [Stored α] [FlatStored α] (a : α) :
    Brings [Change.ofNew a] t (Change.ofNew a :: t) :=
  .news (by simp [Change.ofNew_isNew]) (by simp [Change.ofNew_flat])

/-- Setting a column makes the row of `a` that of `b`. -/
theorem column {α : Type} [Stored α] [FlatStored α] {a b : α} {column value : String}
    (hc : IsPart column) (hkey : Stored.key b = Stored.key a)
    (hrow : (Stored.row a : Row).insert column value = Stored.row b) :
    Brings [Change.ofColumn a column value] (Change.ofNew a :: t) (Change.ofNew b :: t) := by
  refine ⟨by simp [Change.ofColumn_flat a hc], fun m m' hm ha => ?_⟩
  rw [List.foldlM_cons] at ha
  obtain ⟨mid, hs, ha⟩ := bind_ok_iff.1 ha
  cases ha
  have hu := MemoryStore.Holds.update hm hs
  rwa [hrow, ← hkey] at hu

end Transaction.Brings

/-- The rows that a store shows are those that a transaction creates. -/
def Store.Holds (s : Store) (t : Transaction) : Prop :=
  ∃ m, s.engine.Shows m ∧ m.Holds t

namespace Store

variable {s s' : Store} {changes : List Change}

/-- What a commit that came through has done to the rows. -/
theorem commit_ok {m : MemoryStore} (hm : s.engine.Shows m)
    (hflat : ∀ change ∈ changes, change.Flat) (h : s.commit changes = (s', .ok ())) :
    ∃ m', changes.foldlM MemoryStore.apply m = .ok m' ∧ s'.engine.Shows m' := by
  unfold commit at h
  split at h
  next hempty =>
    cases h
    obtain rfl := List.isEmpty_iff.1 hempty
    exact ⟨m, rfl, hm⟩
  next =>
    split at h
    · simp at h
    · have halike := hm.applyAll hflat
      revert halike h
      generalize s.engine.applyAll changes = x
      generalize changes.foldlM MemoryStore.apply m = y
      intro h halike
      cases halike with
      | error fault => simp at h
      | ok hshows =>
        cases h
        exact ⟨_, rfl, hshows⟩

namespace Holds

variable {t before after : Transaction}

theorem new (kind : EngineKind) (outage : Nat) : Holds ⟨.new kind, outage⟩ [] :=
  ⟨.empty, .new kind, .empty⟩

theorem of_engine (h : s.Holds t) (he : s'.engine = s.engine) : s'.Holds t := by
  rwa [Holds, he]

theorem commit (h : s.Holds before) (hb : Transaction.Brings changes before after)
    (hc : s.commit changes = (s', .ok ())) : s'.Holds after := by
  obtain ⟨m, hs, hm⟩ := h
  obtain ⟨m', hf, hs'⟩ := commit_ok hs hb.flat hc
  exact ⟨m', hs', hb.holds m m' hm hf⟩

/-- The key of an entity that could be stored was not in use. -/
theorem fresh {α : Type} [Stored α] [FlatStored α] {a b : α} (h : s.Holds t)
    (hc : s.commit [Change.ofNew a] = (s', .ok ())) (hkey : Stored.key b = Stored.key a) :
    Change.ofNew b ∉ t := by
  obtain ⟨m, hs, hm⟩ := h
  obtain ⟨m', hf, _⟩ := commit_ok hs (by simp [Change.ofNew_flat]) hc
  rw [List.foldlM_cons] at hf
  obtain ⟨mid, ha, _⟩ := bind_ok_iff.1 hf
  rw [Change.ofNew, hkey]
  exact hm.fresh ha (Stored.row b)

/-- The row of an entity is found under its key. -/
theorem row {α : Type} [Stored α] {a : α} (h : s.Holds t) (ha : Change.ofNew a ∈ t) :
    ∃ rows, s.rows (Stored.table α) = .ok rows ∧
      rows.find? (Stored.key a) = some (Stored.row a) := by
  obtain ⟨m, hs, hm⟩ := h
  refine ⟨m.rows (Stored.table α), hs.rows _, SortedMap.find?_of_mem ?_⟩
  rw [(hm _).mem_iff]
  exact List.mem_filterMap.2 ⟨Change.ofNew a, ha, if_pos rfl⟩

/-- A column of an entity can be set unless the connection is down. -/
theorem commit_column_iff {α : Type} [Stored α] [FlatStored α] {a : α} (h : s.Holds t)
    (ha : Change.ofNew a ∈ t) {column : String} (hcolumn : IsPart column) (value : String) :
    (∃ s', s.commit [Change.ofColumn a column value] = (s', .ok ())) ↔ s.outage = 0 := by
  obtain ⟨rows, hrows, hrow⟩ := h.row ha
  obtain ⟨m, hs, -⟩ := h
  have hsame : rows = m.rows (Stored.table α) := by
    have hread := hs.rows (Stored.table α)
    rw [← Store.rows, hrows] at hread
    exact Except.ok.inj hread
  have halike := hs.applyAll (List.forall_mem_singleton.2 (Change.ofColumn_flat a hcolumn value))
  rw [hsame] at hrow
  rw [List.foldlM_cons, Change.ofColumn, MemoryStore.apply, hrow] at halike
  unfold Store.commit
  rw [if_neg (by simp)]
  cases s.outage with
  | succ n => simp
  | zero =>
    cases hengine : s.engine.applyAll [Change.ofColumn a column value] with
    | ok engine => simp
    | error fault =>
      rw [Change.ofColumn] at hengine
      rw [hengine] at halike
      cases halike

end Holds

end Store

end StorageCluster
