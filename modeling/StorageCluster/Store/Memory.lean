import StorageCluster.Store.Table

/-!
# The store in memory

Rows are kept as they are, table by table.
-/
namespace StorageCluster

structure MemoryStore where
  tables : SortedMap Table Rows
  deriving DecidableEq

namespace MemoryStore

def empty : MemoryStore := ⟨.empty⟩

def rows (s : MemoryStore) (table : Table) : Rows := (s.tables.find? table).getD .empty

def setRows (s : MemoryStore) (table : Table) (rows : Rows) : MemoryStore :=
  ⟨s.tables.insert table rows⟩

def apply (s : MemoryStore) : Change → Except StoreFault MemoryStore
  | .create table key row =>
    if (s.rows table).contains key then .error (.duplicateKey key table)
    else .ok (s.setRows table ((s.rows table).insert key row))
  | .delete table key =>
    if (s.rows table).contains key then .ok (s.setRows table ((s.rows table).erase key))
    else .error (.deleteUnknown key table)
  | .update table key column value =>
    match (s.rows table).find? key with
    | some row => .ok (s.setRows table ((s.rows table).insert key (row.insert column value)))
    | none => .error (.updateUnknown key table)

end MemoryStore

end StorageCluster
