/-!
# JSON values

A whole number without sign, fraction or exponent is a `natural`; every other number keeps its
literal. A string literal that holds half of a surrogate pair stands for no text: it is `unpaired`,
as is an object with such a name, and may be skipped but not read. An object keeps its members in
order, repeated names included, and whether all of its names are spelled without escapes.
-/
namespace StorageCluster

inductive Json
  | null
  | bool (value : Bool)
  | natural (value : Nat)
  | decimal (literal : String)
  | string (text : String)
  | unpaired
  | array (items : List Json)
  | object (members : List (String × Json)) (plain : Bool := true)
  deriving Inhabited

namespace Json

/-- Printable characters stand for themselves, also beyond ASCII. -/
def escape (c : Char) : List Char :=
  match c with
  | '"' => ['\\', '"']
  | '\\' => ['\\', '\\']
  | '\n' => ['\\', 'n']
  | '\r' => ['\\', 'r']
  | '\t' => ['\\', 't']
  | c =>
    if c.toNat = 8 then ['\\', 'b']
    else if c.toNat = 12 then ['\\', 'f']
    else if c.toNat < 32 then
      ['\\', 'u', '0', '0', Nat.digitChar (c.toNat / 16), Nat.digitChar (c.toNat % 16)]
    else [c]

def quote (text : String) : String :=
  "\"" ++ String.ofList (text.toList.flatMap escape) ++ "\""

mutual

/-- The text of a value, without blanks. -/
def render : Json → String
  | .null => "null"
  | .bool true => "true"
  | .bool false => "false"
  | .natural n => toString n
  | .decimal literal => literal
  | .string text => quote text
  | .unpaired => "\"\""
  | .array items => "[" ++ renderItems items ++ "]"
  | .object members _ => "\x7b" ++ renderMembers members ++ "\x7d"

def renderItems : List Json → String
  | [] => ""
  | [item] => render item
  | item :: rest => render item ++ "," ++ renderItems rest

def renderMembers : List (String × Json) → String
  | [] => ""
  | [(name, value)] => quote name ++ ":" ++ render value
  | (name, value) :: rest => quote name ++ ":" ++ render value ++ "," ++ renderMembers rest

end

end Json

end StorageCluster
