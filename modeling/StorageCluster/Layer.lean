/-!
# Device layers and storage providers

A resource is a stack of device layers, and a storage pool is kept by a provider.
-/
namespace StorageCluster

inductive LayerKind
  | drbd
  | luks
  | nvme
  | storage
  deriving DecidableEq, Repr, Inhabited

namespace LayerKind

def all : List LayerKind := [.drbd, .luks, .nvme, .storage]

def name : LayerKind → String
  | .drbd => "DRBD"
  | .luks => "LUKS"
  | .nvme => "NVME"
  | .storage => "STORAGE"

def rank : LayerKind → Nat
  | .drbd => 0
  | .luks => 1
  | .nvme => 2
  | .storage => 3

instance : Ord LayerKind := ⟨compareOn rank⟩

instance : Std.TransOrd LayerKind := inferInstanceAs (Std.TransCmp (compareOn rank))

/-- The names, as they are written. -/
def names : List (String × LayerKind) := all.map fun kind => (kind.name, kind)

end LayerKind

inductive Provider
  | diskless
  | lvm
  | lvmThin
  | zfs
  | zfsThin
  | file
  deriving DecidableEq, Repr, Inhabited

namespace Provider

def all : List Provider := [.diskless, .lvm, .lvmThin, .zfs, .zfsThin, .file]

def name : Provider → String
  | .diskless => "DISKLESS"
  | .lvm => "LVM"
  | .lvmThin => "LVM_THIN"
  | .zfs => "ZFS"
  | .zfsThin => "ZFS_THIN"
  | .file => "FILE"

def names : List (String × Provider) := all.map fun p => (p.name, p)

end Provider

end StorageCluster
