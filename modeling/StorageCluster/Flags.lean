import StorageCluster.Text.Blank
import StorageCluster.Text.Numeral

/-!
# Flags

State flags of nodes, resources, resource definitions and snapshots: words of 64 bits, of which some
have names. Bits without a name are kept. As text, flags are joined by ` | `, named ones first and
the other bits together as one hexadecimal number.
-/
namespace StorageCluster

inductive FlagKind
  | node
  | resource
  | definition
  | snapshot
  deriving DecidableEq, Repr

structure Flags (kind : FlagKind) where
  bits : UInt64
  deriving DecidableEq

abbrev NodeFlags := Flags .node
abbrev ResourceFlags := Flags .resource
abbrev DefinitionFlags := Flags .definition
abbrev SnapshotFlags := Flags .snapshot

/-- The flags of a kind, in the order in which they are written. -/
def FlagKind.named : FlagKind → List (String × UInt64)
  | .node => [("DELETE", 1), ("EVICTED", 2), ("EVACUATE", 4)]
  | .resource => [("DELETE", 1), ("DRBD_DISKLESS", 4), ("NVME_INITIATOR", 8), ("TIE_BREAKER", 16),
      ("INACTIVE", 32), ("DISKLESS", 12)]
  | .definition => [("DELETE", 1)]
  | .snapshot => [("SUCCESSFUL", 1), ("DELETE", 2)]

def FlagKind.knownBits (kind : FlagKind) : UInt64 :=
  kind.named.foldl (fun bits f => bits ||| f.2) 0

namespace Flags

variable {kind : FlagKind}

instance : Inhabited (Flags kind) := ⟨⟨0⟩⟩

def none : Flags kind := ⟨0⟩

def union (a b : Flags kind) : Flags kind := ⟨a.bits ||| b.bits⟩

def without (a b : Flags kind) : Flags kind := ⟨a.bits &&& (~~~ b.bits)⟩

/-- All bits of `b` are set in `a`. -/
def contains (a b : Flags kind) : Bool := a.bits &&& b.bits == b.bits

/-- Some bit of `b` is set in `a`. -/
def intersects (a b : Flags kind) : Bool := a.bits &&& b.bits != 0

/-- Flags without a bit that has no name. -/
def ofKnownBits? (bits : UInt64) : Option (Flags kind) :=
  if bits &&& (~~~ kind.knownBits) = 0 then some ⟨bits⟩ else Option.none

/-- Names of flags that are wholly set and add something to those before, and the bits left over. -/
def split (source : UInt64) : UInt64 → List (String × UInt64) → List String × UInt64
  | rest, [] => ([], rest)
  | rest, (name, bits) :: more =>
    if source &&& bits == bits && rest &&& bits != 0 then
      let (names, left) := split source (rest &&& (~~~ bits)) more
      (name :: names, left)
    else split source rest more

def toText (f : Flags kind) : String :=
  let (names, left) := split f.bits f.bits kind.named
  let parts := if left = 0 then names else names ++ ["0x" ++ Numeral.writeHex 1 left.toNat]
  " | ".intercalate parts

def part? (kind : FlagKind) (text : String) : Option UInt64 :=
  match text.toList with
  | [] => Option.none
  | '0' :: 'x' :: digits =>
    match Numeral.read 16 UInt64.size (String.ofList digits) with
    | .ok n => some (UInt64.ofNat n)
    | .error _ => Option.none
  | _ => kind.named.lookup text

def splitOnBar (cs : List Char) : List (List Char) :=
  cs.foldr (fun c parts =>
    if c = '|' then [] :: parts
    else match parts with
      | [] => [[c]]
      | p :: rest => (c :: p) :: rest) [[]]

def ofText? (text : String) : Option (Flags kind) :=
  let cs := Blank.trimChars text.toList
  if cs.isEmpty then some none
  else
    let parts := (splitOnBar cs).mapM fun p =>
      part? kind (String.ofList (Blank.trimChars p))
    parts.map fun bits => ⟨bits.foldl (· ||| ·) 0⟩

end Flags

namespace NodeFlags

def delete : NodeFlags := ⟨1⟩
def evicted : NodeFlags := ⟨2⟩
def evacuate : NodeFlags := ⟨4⟩

end NodeFlags

namespace ResourceFlags

def delete : ResourceFlags := ⟨1⟩
def drbdDiskless : ResourceFlags := ⟨4⟩
def nvmeInitiator : ResourceFlags := ⟨8⟩
def tieBreaker : ResourceFlags := ⟨16⟩
def inactive : ResourceFlags := ⟨32⟩

/-- Diskless either way. -/
def diskless : ResourceFlags := drbdDiskless.union nvmeInitiator

end ResourceFlags

end StorageCluster
