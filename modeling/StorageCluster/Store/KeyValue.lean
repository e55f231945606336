import StorageCluster.Store.Table

/-!
# The store over flat keys

Every column is one entry under `LINSTOR/<table>/<primary key>/<column>`. A row is what is found
from its part of that text on, as long as keys start with it, so a row without columns leaves
nothing behind. Reading takes the text after the last slash for the column.
-/
namespace StorageCluster

structure KeyValueStore where
  entries : SortedMap String String
  deriving DecidableEq

namespace KeyValueStore

def empty : KeyValueStore := ⟨.empty⟩

def tableRoot (table : Table) : String := "LINSTOR/" ++ table.name ++ "/"

def rowRoot (table : Table) (key : String) : String := tableRoot table ++ key ++ "/"

def startsWith (root text : String) : Bool := root.toList.isPrefixOf text.toList

/-- The entries from a root on, as long as their keys start with it. -/
def scan (s : KeyValueStore) (root : String) : List (String × String) :=
  (s.entries.entriesFrom root).takeWhile fun e => startsWith root e.1

/-- Only the first entry from the root of a row on is looked at. -/
def hasRow (s : KeyValueStore) (table : Table) (key : String) : Bool :=
  let root := rowRoot table key
  (s.entries.entriesFrom root).head?.any fun e => startsWith root e.1

def apply (s : KeyValueStore) : Change → Except StoreFault KeyValueStore
  | .create table key row =>
    if s.hasRow table key then .error (.duplicateKey key table)
    else .ok ⟨row.entries.foldl
      (fun entries e => entries.insert (rowRoot table key ++ e.1) e.2) s.entries⟩
  | .delete table key =>
    let keys := (s.scan (rowRoot table key)).map (·.1)
    if keys.isEmpty then .error (.deleteUnknown key table)
    else .ok ⟨keys.foldl SortedMap.erase s.entries⟩
  | .update table key column value =>
    if s.hasRow table key then
      .ok ⟨s.entries.insert (rowRoot table key ++ column) value⟩
    else .error (.updateUnknown key table)

/-- Text before and after the last slash. -/
def splitAtLastSlash? (cs : List Char) : Option (List Char × List Char) :=
  let after := (cs.reverse.takeWhile (· != '/')).reverse
  match cs.reverse.dropWhile (· != '/') with
  | [] => none
  | _ :: before => some (before.reverse, after)

def malformed (table : Table) (key : String) : Fault :=
  .databaseLoad table.name ("malformed key '" ++ key ++ "'")

def addColumn (rows : Rows) (key column value : String) : Rows :=
  rows.upsert key fun row => (row.getD .empty).insert column value

/-- All rows of a table, column by column. -/
def rows (s : KeyValueStore) (table : Table) : Except Fault Rows :=
  let root := tableRoot table
  (s.scan root).foldlM (fun rows e =>
    match splitAtLastSlash? (e.1.toList.drop root.length) with
    | some (key, column) =>
      .ok (addColumn rows (String.ofList key) (String.ofList column) e.2)
    | none => .error (malformed table e.1)) .empty

end KeyValueStore

end StorageCluster
