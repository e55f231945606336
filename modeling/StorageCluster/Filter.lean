import StorageCluster.Layer
import StorageCluster.Name

/-!
# Placement filters

What a placement of replicas has to obey. A request is merged with the policy of its resource
group: what the request leaves open, the policy fills in.
-/
namespace StorageCluster

structure Filter where
  placeCount : Option UInt32 := none
  nodes : List NodeName := []
  pools : List PoolName := []
  avoidResources : List ResourceName := []
  avoidPattern : Option String := none
  sameProps : List String := []
  differentProps : List String := []
  layerStack : List LayerKind := []
  providers : List Provider := []
  disklessOnRemaining : Option Bool := none
  deriving DecidableEq, Inhabited

def defaultPlaceCount : UInt32 := 2

namespace Filter

/-- A list that names something wins over the fallback. -/
def fill {α : Type} (own fallback : List α) : List α := if own.isEmpty then fallback else own

def merge (f fallback : Filter) : Filter where
  placeCount := f.placeCount <|> fallback.placeCount
  nodes := fill f.nodes fallback.nodes
  pools := fill f.pools fallback.pools
  avoidResources := fill f.avoidResources fallback.avoidResources
  avoidPattern := f.avoidPattern <|> fallback.avoidPattern
  sameProps := fill f.sameProps fallback.sameProps
  differentProps := fill f.differentProps fallback.differentProps
  layerStack := fill f.layerStack fallback.layerStack
  providers := fill f.providers fallback.providers
  disklessOnRemaining := f.disklessOnRemaining <|> fallback.disklessOnRemaining

def count (f : Filter) : Nat := (f.placeCount.getD defaultPlaceCount).toNat

def wantsDiskless (f : Filter) : Bool := f.disklessOnRemaining.getD false

end Filter

end StorageCluster
