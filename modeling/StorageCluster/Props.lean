import StorageCluster.SortedMap

/-!
# Properties

Text properties under text keys. A key may be given inside a namespace, whose trailing slashes do
not count. Several containers can be asked in order of priority.
-/
namespace StorageCluster

structure Props where
  map : SortedMap String String
  deriving DecidableEq, Inhabited

namespace Props

def minReplicaCountKey : String := "AutoEvictMinReplicaCount"

def drbdOptions : String := "DrbdOptions"

/-- Holds the name of the node that was granted the primary role. -/
def primarySetOnKey : String := "DrbdPrimarySetOn"

def withoutTrailingSlashes (text : String) : String :=
  String.ofList ((text.toList.reverse.dropWhile (· == '/')).reverse)

def fullKey (key : String) (space : Option String) : String :=
  match space with
  | some s => if s.isEmpty then key else withoutTrailingSlashes s ++ "/" ++ key
  | none => key

def empty : Props := ⟨.empty⟩

def ofList (entries : List (String × String)) : Props := ⟨.ofList entries⟩

def get? (p : Props) (key : String) (space : Option String) : Option String :=
  p.map.find? (fullKey key space)

def set (p : Props) (key : String) (space : Option String) (value : String) : Props :=
  ⟨p.map.insert (fullKey key space) value⟩

def erase (p : Props) (key : String) (space : Option String) : Props :=
  ⟨p.map.erase (fullKey key space)⟩

/-- The first container that holds the key answers. -/
def firstOf (containers : List Props) (key : String) (space : Option String) : Option String :=
  containers.findSome? fun p => p.get? key space

end Props

end StorageCluster
