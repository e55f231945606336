import StorageCluster.Props
import StorageCluster.Text.Json.Decode

/-!
# Fields of a scenario

A scenario is a JSON text that sets up a cluster or a satellite and lets things happen to it step by
step. It is written by hand and read leniently: a field that is left out, or that holds another kind
of value than is expected, has its default. A 64-bit number may be written as a decimal text.
-/
namespace StorageCluster.Scenario

/-- Of fields with the same name the last one counts. -/
def field? (j : Json) (name : String) : Option Json :=
  match j with
  | .object members _ => (members.reverse.find? fun m => m.1 == name).map (·.2)
  | _ => none

def text? (j : Json) (name : String) : Option String := (field? j name).bind Json.text?

def text (j : Json) (name : String) : String := (text? j name).getD ""

def flag (j : Json) (name : String) : Bool := ((field? j name).bind Json.bool?).getD false

def word64Of? : Json → Option UInt64
  | .string s =>
    match Numeral.readDecimal UInt64.size s with
    | .ok n => some (UInt64.ofNat n)
    | .error _ => none
  | j => j.uint64?

def word64? (j : Json) (name : String) : Option UInt64 := (field? j name).bind word64Of?

def word64 (j : Json) (name : String) : UInt64 := (word64? j name).getD 0

def number (j : Json) (name : String) : Nat := (word64 j name).toNat

def numberOr (default : Nat) (j : Json) (name : String) : Nat :=
  ((word64? j name).map UInt64.toNat).getD default

def items? (j : Json) (name : String) : Option (List Json) :=
  match field? j name with
  | some (.array xs) => some xs
  | _ => none

def items (j : Json) (name : String) : List Json := (items? j name).getD []

/-- A value that is no text stands for the empty one. -/
def textOf (j : Json) : String := j.text?.getD ""

def texts (j : Json) (name : String) : List String := (items j name).map textOf

def object? (j : Json) (name : String) : Option Json :=
  match field? j name with
  | some (.object members _) => some (.object members)
  | _ => none

def object (j : Json) (name : String) : Json := (object? j name).getD (.object [])

/-- A value in its written form, taken as it is; null and nothing stand for the empty object. -/
def written (j : Json) (name : String) : Json :=
  match field? j name with
  | none | some .null => .object []
  | some value => value

/-- The members of an object, by name. -/
def membersOf : Json → List (String × Json)
  | .object members _ => (SortedMap.ofList members).entries
  | _ => []

def members (j : Json) (name : String) : List (String × Json) := membersOf (object j name)

/-- The members of an object as texts. -/
def textMap (j : Json) : SortedMap String String :=
  .ofList ((membersOf j).map fun m => (m.1, textOf m.2))

def props (j : Json) (name : String) : Props := ⟨textMap (object j name)⟩

end StorageCluster.Scenario
