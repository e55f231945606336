import StorageCluster.Store.KeyValue
import StorageCluster.Store.Memory

/-!
# The store

The store runs on one of two engines. A commit is all or nothing: when a change is refused, none of
the batch is kept. While the connection is down, every batch is refused as a whole. `rows` is the
view in which both engines agree.
-/
namespace StorageCluster

inductive EngineKind
  | memory
  | keyValue
  deriving DecidableEq, Repr, Inhabited

def EngineKind.names : List (String × EngineKind) := [("memory", .memory), ("kv", .keyValue)]

inductive Engine
  | memory (store : MemoryStore)
  | keyValue (store : KeyValueStore)
  deriving DecidableEq

namespace Engine

def new : EngineKind → Engine
  | .memory => .memory .empty
  | .keyValue => .keyValue .empty

def kind : Engine → EngineKind
  | .memory _ => .memory
  | .keyValue _ => .keyValue

def applyAll : Engine → List Change → Except StoreFault Engine
  | .memory store, changes => (changes.foldlM MemoryStore.apply store).map .memory
  | .keyValue store, changes => (changes.foldlM KeyValueStore.apply store).map .keyValue

def rows : Engine → Table → Except Fault Rows
  | .memory store, table => .ok (store.rows table)
  | .keyValue store, table => store.rows table

end Engine

/-- `outage` counts the batches that are still going to be refused. -/
structure Store where
  engine : Engine
  outage : Nat := 0
  deriving DecidableEq

namespace Store

def new (kind : EngineKind) : Store := ⟨Engine.new kind, 0⟩

/-- An empty batch never reaches the engine. -/
def commit (s : Store) (changes : List Change) : Store × Except Fault Unit :=
  if changes.isEmpty then (s, .ok ())
  else match s.outage with
    | n + 1 => ({ s with outage := n }, .error StoreFault.connectionLost.toFault)
    | 0 =>
      match s.engine.applyAll changes with
      | .ok engine => ({ s with engine }, .ok ())
      | .error fault => (s, .error fault.toFault)

def rows (s : Store) (table : Table) : Except Fault Rows := s.engine.rows table

end Store

end StorageCluster
