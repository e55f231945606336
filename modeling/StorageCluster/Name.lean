import StorageCluster.SortedMap

/-!
# Names

Everything in a cluster is named by two to 48 ASCII characters: a letter first, then letters,
digits, `_` and `-`. A name keeps the spelling it was given; two names are the same (`==`, and in
the order that maps use) when their upper-case texts are.
-/
namespace StorageCluster

inductive NameKind
  | node
  | resource
  | group
  | pool
  | snapshot
  | interface
  deriving DecidableEq, Repr

def NameKind.label : NameKind → String
  | .node => "Node name"
  | .resource => "Resource name"
  | .group => "Resource group name"
  | .pool => "Storage pool name"
  | .snapshot => "Snapshot name"
  | .interface => "Network interface name"

/-- Why a text is not a name. -/
inductive NameProblem
  | length
  | start
  | character (c : Char)
  deriving DecidableEq

structure NameFault where
  kind : NameKind
  text : String
  problem : NameProblem
  deriving DecidableEq

def NameFault.message (f : NameFault) : String :=
  let subject := f.kind.label ++ " '" ++ f.text ++ "'"
  match f.problem with
  | .length => subject ++ " must be between 2 and 48 characters long"
  | .start => subject ++ " must start with a letter"
  | .character c => subject ++ " contains invalid character '" ++ String.singleton c ++ "'"

def isLetter (c : Char) : Bool := ('a' ≤ c && c ≤ 'z') || ('A' ≤ c && c ≤ 'Z')

def isNameCharacter (c : Char) : Bool :=
  isLetter c || ('0' ≤ c && c ≤ '9') || c == '_' || c == '-'

/-- Length is judged before the first character, and that before the others. -/
def nameProblem? (text : String) : Option NameProblem :=
  let cs := text.toList
  if cs.length < 2 ∨ 48 < cs.length then some .length
  else match cs with
    | [] => some .start
    | c :: rest =>
      if isLetter c then
        (rest.find? fun c => !isNameCharacter c).map .character
      else some .start

structure Name (kind : NameKind) where
  display : String
  valid : nameProblem? display = none
  deriving DecidableEq

abbrev NodeName := Name .node
abbrev ResourceName := Name .resource
abbrev GroupName := Name .group
abbrev PoolName := Name .pool
abbrev SnapshotName := Name .snapshot
abbrev InterfaceName := Name .interface

def upperCase (text : String) : String := String.ofList (text.toList.map Char.toUpper)

/-- Texts that differ at most in the case of ASCII letters. -/
def sameIgnoringCase (a b : String) : Bool := upperCase a == upperCase b

namespace Name

variable {kind : NameKind}

def ofText (kind : NameKind) (text : String) : Except NameFault (Name kind) :=
  match h : nameProblem? text with
  | none => .ok ⟨text, h⟩
  | some problem => .error ⟨kind, text, problem⟩

def ofText? (kind : NameKind) (text : String) : Option (Name kind) :=
  (ofText kind text).toOption

/-- The text by which names are compared and keys are built. -/
def value (name : Name kind) : String := upperCase name.display

instance : BEq (Name kind) := ⟨fun a b => a.value == b.value⟩

instance : Hashable (Name kind) := ⟨fun name => hash name.value⟩

instance : Ord (Name kind) := ⟨compareOn value⟩

instance : Std.TransOrd (Name kind) :=
  inferInstanceAs (Std.TransCmp (compareOn (value : Name kind → String)))

instance : ToString (Name kind) := ⟨display⟩

theorem compare_eq_compareOn (a b : Name kind) : compare a b = compareOn value a b := rfl

theorem compareOn_value (a b : Name kind) : compareOn value a b = compare a.value b.value := rfl

theorem compare_eq_iff (a b : Name kind) : compare a b = .eq ↔ a.value = b.value := by
  rw [compare_eq_compareOn, compareOn_value]
  exact Std.compare_eq_iff_eq

theorem beq_iff (a b : Name kind) : (a == b) = true ↔ a.value = b.value :=
  beq_iff_eq (a := a.value) (b := b.value)

end Name

/-- A set of names. -/
abbrev NameSet (kind : NameKind) := SortedMap (Name kind) Unit

/-- Of several spellings of a name, the last one given stays. -/
def NameSet.ofNames {kind : NameKind} (names : List (Name kind)) : NameSet kind :=
  names.foldr (fun name set => set.insert name ()) .empty

/-- Pairs are ordered by their first parts, then by their second. -/
instance pairOrd {α β : Type} [Ord α] [Ord β] : Ord (α × β) :=
  ⟨compareLex (compareOn Prod.fst) (compareOn Prod.snd)⟩

instance pairTransOrd {α β : Type} [Ord α] [Ord β] [Std.TransOrd α] [Std.TransOrd β] :
    Std.TransOrd (α × β) :=
  inferInstanceAs (Std.TransCmp (compareLex (compareOn (Prod.fst : α × β → α))
    (compareOn (Prod.snd : α × β → β))))

/-- Snapshots are filed under their name and their node. -/
instance snapshotTransOrd : Std.TransOrd (SnapshotName × NodeName) := pairTransOrd

end StorageCluster
