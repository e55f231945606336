import StorageCluster.Satellite.Devices

/-!
# The LUKS layer

An encrypted device can be opened once the master key is known. It is closed before the layers
below are taken down.
-/
namespace StorageCluster

namespace Luks

def keyMissing (name : ResourceName) : Fault := .resourceLayer
  { message := "Failed to open encrypted device of '" ++ name.display ++ "'"
    cause := some "The master key has not been set"
    correction := some "Enter the master passphrase on the controller" }

def opened (name : ResourceName) : Entry :=
  { code := Code.resource ||| Code.modified
    message := "Encrypted device of '" ++ name.display ++ "' opened" }

def process (l : LayerResource) (descend : Act Devices Unit) : Act Devices Unit := do
  let name := l.resource.name
  if l.resource.isDeleted then
    Act.update fun d => { d with luks := { d.luks with opened := d.luks.opened.erase name } }
    descend
  else if (← Act.devices).luks.masterKey.isNone then throw (keyMissing name)
  else
    descend
    Act.update fun d => { d with luks := { d.luks with opened := d.luks.opened.insert name () } }
    Act.report (opened name)

end Luks

def luksLayer : LayerHandler Devices :=
  { kind := .luks, prepare := fun d _ _ => (d, .ok ()), process := Luks.process,
    clearCache := fun d => (d, .ok ()) }

end StorageCluster
