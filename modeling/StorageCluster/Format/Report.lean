import StorageCluster.Format.Basic

/-!
# Written form of entries and reports

Absent parts of an entry, and references when there are none, are left out.
-/
namespace StorageCluster

namespace Entry

def part (name : String) : Option String → List (String × Json)
  | none => []
  | some text => [(name, .string text)]

def toJson (e : Entry) : Json :=
  .object ([("returnCode", Json.uint64 e.code), ("message", .string e.message)] ++
    part "cause" e.cause ++ part "correction" e.correction ++ part "details" e.details ++
    if e.refs.isEmpty then [] else [("objRefs", Json.ofSortedMap id .string e.refs)])

def ofJson? (j : Json) : Option Entry := do
  let [code, message, cause, correction, details, refs] ← j.slots?
    ["returnCode", "message", "cause", "correction", "details", "objRefs"] | none
  let text := Json.Slot.defaulted none (Json.nullable? Json.text?)
  return {
    code := ← code.required Json.uint64?
    message := ← message.required Json.text?
    cause := ← text cause
    correction := ← text correction
    details := ← text details
    refs := ← refs.defaulted .empty (Json.sortedMap? some Json.text?) }

end Entry

namespace Report

def toJson (r : Report) : Json := .object [("entries", Json.listOf Entry.toJson r)]

def ofJson? (j : Json) : Option Report := do
  let [entries] ← j.slots? ["entries"] | none
  entries.required (Json.list? Entry.ofJson?)

end Report

end StorageCluster
