import StorageCluster.Text.Json
import StorageCluster.Text.Json.Magnitude

/-!
# Decoding JSON values

Small decoders from `Json` to typed values, each `none` on anything else. A record is read from an
object by field name, where unknown names are skipped and a known name may stand only once, or from
an array by position. A choice among names may also be written as an object whose only member has
the value null. A tagged record is buffered before it is read, so all of it has to be well formed.
-/
namespace StorageCluster.Json

/-- What a record holds for one of its fields. -/
inductive Slot
  | given (value : Json)
  | omitted
  | cutOff
  deriving Inhabited

def memberSlots (names : List String) (members : List (String × Json)) : Option (List Slot) :=
  names.mapM fun name =>
    match members.filter (fun m => m.1 == name) with
    | [] => some .omitted
    | [m] => some (.given m.2)
    | _ => none

def itemSlots : List String → List Json → Option (List Slot)
  | [], [] => some []
  | [], _ :: _ => none
  | _ :: names, [] => (itemSlots names []).map (.cutOff :: ·)
  | _ :: names, item :: items => (itemSlots names items).map (.given item :: ·)

/-- One slot for each of `names`, in this order. -/
def slots? (names : List String) : Json → Option (List Slot)
  | .object members _ => memberSlots names members
  | .array items => itemSlots names items
  | _ => none

def Slot.required {α : Type} (decode : Json → Option α) : Slot → Option α
  | .given value => decode value
  | _ => none

/-- Null or an omitted field stands for nothing. -/
def Slot.optional {α : Type} (decode : Json → Option α) : Slot → Option (Option α)
  | .given .null => some none
  | .given value => (decode value).map some
  | .omitted => some none
  | .cutOff => none

def Slot.defaulted {α : Type} (default : α) (decode : Json → Option α) : Slot → Option α
  | .given value => decode value
  | _ => some default

def nullable? {α : Type} (decode : Json → Option α) : Json → Option (Option α)
  | .null => some none
  | value => (decode value).map some

def text? : Json → Option String
  | .string text => some text
  | _ => none

def bool? : Json → Option Bool
  | .bool value => some value
  | _ => none

def naturalBelow? (limit : Nat) : Json → Option Nat
  | .natural n => if n < limit then some n else none
  | _ => none

def uint16? (j : Json) : Option UInt16 := (naturalBelow? UInt16.size j).map UInt16.ofNat

def uint32? (j : Json) : Option UInt32 := (naturalBelow? UInt32.size j).map UInt32.ofNat

def uint64? (j : Json) : Option UInt64 := (naturalBelow? UInt64.size j).map UInt64.ofNat

def list? {α : Type} (decode : Json → Option α) : Json → Option (List α)
  | .array items => items.mapM decode
  | _ => none

/-- The member of an object as key and value, both decoded. -/
def pairs? {κ α : Type} (key : String → Option κ) (decode : Json → Option α) :
    Json → Option (List (κ × α))
  | .object members _ => members.mapM fun m => do
      let k ← key m.1
      let v ← decode m.2
      return (k, v)
  | _ => none

/-- A number below `limit` used as the name of a member. -/
def numberKey? (limit : Nat) (name : String) : Option Nat :=
  if Numeral.isCanonical name then
    match Numeral.readDecimal limit name with
    | .ok n => some n
    | .error _ => none
  else none

/-- The members of an object whose names are numbers below `limit`; digits are not to be escaped. -/
def numbered? {α : Type} (limit : Nat) (decode : Json → Option α) (j : Json) :
    Option (List (Nat × α)) :=
  match j with
  | .object _ false => none
  | j => pairs? (numberKey? limit) decode j

/-- The word of a choice, plain or as the only member of an object. -/
def word? : Json → Option String
  | .string text => some text
  | .object [(name, .null)] _ => some name
  | _ => none

def choice? {α : Type} (table : List (String × α)) (j : Json) : Option α :=
  (word? j).bind fun word => table.lookup word

mutual

/-- Containers are nested at most `depth` deep, and every string and number has a value. -/
def isBufferable : Nat → Json → Bool
  | _, .unpaired => false
  | _, .decimal literal => (Magnitude.ofLiteral literal).isFinite
  | _, .natural n => (Magnitude.ofLiteral (Numeral.write n)).isFinite
  | 0, .array _ => false
  | 0, .object .. => false
  | depth + 1, .array items => areBufferable depth items
  | depth + 1, .object members _ => areBufferableMembers depth members
  | _, _ => true

def areBufferable : Nat → List Json → Bool
  | _, [] => true
  | depth, item :: rest => isBufferable depth item && areBufferable depth rest

def areBufferableMembers : Nat → List (String × Json) → Bool
  | _, [] => true
  | depth, (_, item) :: rest => isBufferable depth item && areBufferableMembers depth rest

end

/-- The slots of a record whose variant is named by the member `tag`, which may stand anywhere (in
an array, first); `variant` gives the fields of each. -/
def taggedSlots? {α : Type} (tag : String) (variant : String → Option (α × List String)) :
    Json → Option (α × List Slot)
  | .object members _ =>
    match members.filter (fun m => m.1 == tag) with
    | [(_, .string word)] =>
      match variant word with
      | some (v, names) =>
        (memberSlots names (members.filter fun m => m.1 != tag)).map fun slots => (v, slots)
      | none => none
    | _ => none
  | .array (.string word :: items) =>
    match variant word with
    | some (v, names) => (itemSlots names items).map fun slots => (v, slots)
    | none => none
  | _ => none

end StorageCluster.Json
