import StorageCluster.Fault

/-!
# Tables, rows and changes

The store keeps rows of text columns in nine tables, each row under a primary key. It is changed by
creating and deleting rows and by setting single columns.
-/
namespace StorageCluster

inductive Table
  | nodes
  | groups
  | definitions
  | volumeDefinitions
  | pools
  | resources
  | volumes
  | snapshots
  | connections
  deriving DecidableEq, Repr, Inhabited

namespace Table

/-- Rows refer only to rows of tables that stand before. -/
def all : List Table :=
  [.nodes, .groups, .definitions, .volumeDefinitions, .pools, .resources, .volumes, .snapshots,
    .connections]

def name : Table → String
  | .nodes => "NODES"
  | .groups => "RESOURCE_GROUPS"
  | .definitions => "RESOURCE_DEFINITIONS"
  | .volumeDefinitions => "VOLUME_DEFINITIONS"
  | .pools => "NODE_STOR_POOL"
  | .resources => "RESOURCES"
  | .volumes => "VOLUMES"
  | .snapshots => "SNAPSHOTS"
  | .connections => "NODE_CONNECTIONS"

def rank : Table → Nat
  | .nodes => 0
  | .groups => 1
  | .definitions => 2
  | .volumeDefinitions => 3
  | .pools => 4
  | .resources => 5
  | .volumes => 6
  | .snapshots => 7
  | .connections => 8

instance : Ord Table := ⟨compareOn rank⟩

instance : Std.TransOrd Table := inferInstanceAs (Std.TransCmp (compareOn rank))

end Table

/-- Texts by column. -/
abbrev Row := SortedMap String String

/-- Rows by primary key. -/
abbrev Rows := SortedMap String Row

inductive Change
  | create (table : Table) (key : String) (row : Row)
  | delete (table : Table) (key : String)
  | update (table : Table) (key : String) (column : String) (value : String)
  deriving DecidableEq

def Change.table : Change → Table
  | .create table _ _ => table
  | .delete table _ => table
  | .update table _ _ _ => table

/-- Why the store refuses a change. -/
inductive StoreFault
  | duplicateKey (key : String) (table : Table)
  | deleteUnknown (key : String) (table : Table)
  | updateUnknown (key : String) (table : Table)
  | connectionLost
  deriving DecidableEq

namespace StoreFault

def message : StoreFault → String
  | .duplicateKey key table =>
    "duplicate primary key '" ++ key ++ "' in table " ++ table.name
  | .deleteUnknown key table =>
    "cannot delete unknown row '" ++ key ++ "' from table " ++ table.name
  | .updateUnknown key table =>
    "cannot update unknown row '" ++ key ++ "' in table " ++ table.name
  | .connectionLost => "connection lost"

def toFault (f : StoreFault) : Fault := .database f.message

end StoreFault

end StorageCluster
