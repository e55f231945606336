import StorageCluster.Text.Flow.Cursor
import StorageCluster.Text.Json
import StorageCluster.Text.Numeral

/-!
# Flow documents

Records in braces and lists in brackets, as in JSON, but words need no quotes and lines fold. A key
and its colon stand on one line, at most `maxKeyLength` characters apart. A word that spells a JSON
scalar is read as that scalar, every other one is kept as it is spelled. `fuel` bounds the steps to
go; a character takes at most four of them. Main definition: `Flow.read?`.
-/
namespace StorageCluster.Flow

def maxKeyLength : Nat := 1024

/-- Other control characters, surrogates and the last two of the basic plane may not occur. -/
def isAllowed (c : Char) : Bool :=
  let n := c.toNat
  n == 9 || n == 10 || n == 13 || (0x20 ≤ n && n ≤ 0x7E) || n == 0x85 ||
    (0xA0 ≤ n && n ≤ 0xFFFD) || 0x10000 ≤ n

/-! ## Scalars -/

def simpleEscape? (c : Char) : Option Nat :=
  match c with
  | '0' => some 0
  | 'a' => some 7
  | 'b' => some 8
  | 't' | '\t' => some 9
  | 'n' => some 10
  | 'v' => some 11
  | 'f' => some 12
  | 'r' => some 13
  | 'e' => some 27
  | ' ' => some 0x20
  | '"' => some 0x22
  | '/' => some 0x2F
  | '\\' => some 0x5C
  | 'N' => some 0x85
  | '_' => some 0xA0
  | 'L' => some 0x2028
  | 'P' => some 0x2029
  | _ => none

/-- How many hexadecimal digits follow. -/
def escapeWidth? (c : Char) : Option Nat :=
  match c with
  | 'x' => some 2
  | 'u' => some 4
  | 'U' => some 8
  | _ => none

/-- The character of an escape, and over how many characters it goes; no half of a surrogate pair
can be escaped. -/
def escape? : List Char → Option (Char × Nat)
  | [] => none
  | c :: rest =>
    match simpleEscape? c, escapeWidth? c with
    | some n, _ => some (Char.ofNat n, 1)
    | none, some width =>
      match Numeral.readDigits 16 UInt32.size 0 (rest.take width) with
      | .ok n =>
        if (rest.take width).length = width ∧ n.isValidChar then some (Char.ofNat n, width + 1)
        else none
      | .error _ => none
    | none, none => none

/-- The characters up to the closing quote, in reverse. -/
def quoted : Nat → List Char → Cursor → Option (List Char × Cursor)
  | 0, _, _ => none
  | fuel + 1, acc, c =>
    if c.atSeparator then none
    else match c.rest with
    | [] => none
    | '"' :: _ => some (acc, c.next)
    | '\\' :: rest =>
      if rest.head?.any isBreak then
        let (gap, c) := Gap.scan fuel {} c.next.next
        quoted fuel (gap.breaks ++ acc) c
      else
        match escape? rest with
        | some (ch, count) => quoted fuel (ch :: acc) (c.forward (count + 1))
        | none => none
    | ch :: _ =>
      if isBlank ch || isBreak ch then
        let (gap, c) := Gap.scan fuel {} c
        quoted fuel (gap.folded ++ acc) c
      else quoted fuel (ch :: acc) c.next

def isIndicator (c : Char) : Bool :=
  ['?', ':', ',', '[', ']', '\x7b', '\x7d', '#', '&', '*', '!', '|', '>', '\'', '"', '%', '@',
    '\x60'].contains c

def isBracket (c : Char) : Bool := ['[', ']', '\x7b', '\x7d'].contains c

/-- Whether a word ends before a character, if that character may follow it at all. -/
def endsWord? (c : Char) (rest : List Char) : Option Bool :=
  if c == ':' then
    match rest.head? with
    | none => some true
    | some after =>
      if isBlank after || isBreak after then some true
      else if after == ',' || after == '?' || isBracket after then none
      else some false
  else some (c == ',' || isBracket c)

/-- The characters of a word, in reverse; `gap` stands before the next one. -/
def wordBody : Nat → List Char → Gap → Cursor → Option (List Char × Cursor)
  | 0, _, _, _ => none
  | fuel + 1, acc, gap, c =>
    match c.rest with
    | [] => some (acc, c)
    | ch :: rest =>
      if c.atSeparator || (ch == '#' && !gap.isEmpty) then some (acc, c)
      else if isBlank ch || isBreak ch then
        let (gap, c) := Gap.scan fuel {} c
        wordBody fuel acc gap c
      else match endsWord? ch rest with
      | none => none
      | some true => some (acc, c)
      | some false => wordBody fuel (ch :: (gap.folded ++ acc)) {} c.next

/-- A word as the scalar it spells. -/
def ofWord (word : String) : Json :=
  match word with
  | "null" => .null
  | "true" => .bool true
  | "false" => .bool false
  | _ =>
    match Numeral.isCanonical word, Numeral.readDecimal UInt64.size word with
    | true, .ok n => .natural n
    | _, _ => .decimal word

/-- The text of a scalar, whether or not it is quoted. -/
def text? : Json → Option String
  | .string text => some text
  | .natural n => some (Numeral.write n)
  | .decimal word => some word
  | .bool b => some (toString b)
  | .null => some "null"
  | _ => none

def word (fuel : Nat) (c : Cursor) : Option (Json × Cursor) :=
  match c.rest with
  | [] => none
  | ch :: rest =>
    if isIndicator ch || (ch == '-' && rest.head?.all fun d => isBlank d || isBreak d) then none
    else (wordBody fuel [] {} c).map fun (acc, c) => (ofWord (String.ofList acc.reverse), c)

/-! ## Collections -/

/-- An item of a list or a record: a key with its value, or something on its own. -/
abbrev Entry := Json × Option Json

/-- Nothing at all, where a value is expected. -/
def nothing : Json := .decimal ""

/-- A record with a key that is no scalar can be skipped but not read. -/
def record (entries : List Entry) : Json :=
  match entries.mapM fun e => (text? e.1).map fun name => (name, e.2.getD nothing) with
  | some members => .object members
  | none => .unpaired

/-- In a list, a key with its value is a record of its own. -/
def list (entries : List Entry) : Json :=
  .array (entries.map fun e => if e.2.isSome then record [e] else e.1)

def isKey (start colon : Cursor) : Bool :=
  start.line == colon.line && colon.index ≤ start.index + maxKeyLength

mutual

def node : Nat → Cursor → Option (Json × Cursor)
  | 0, _ => none
  | fuel + 1, c =>
    match c.rest with
    | '\x7b' :: _ =>
      (entries '\x7d' fuel [] c.next).map fun (es, c) => (record es, c)
    | '[' :: _ => (entries ']' fuel [] c.next).map fun (es, c) => (list es, c)
    | '"' :: _ =>
      (quoted fuel [] c.next).map fun (acc, c) => (.string (String.ofList acc.reverse), c)
    | _ => word fuel c

/-- Entries up to the closing bracket, added to those before. -/
def entries (close : Char) : Nat → List Entry → Cursor → Option (List Entry × Cursor)
  | 0, _, _ => none
  | fuel + 1, acc, c =>
    let c := c.skip true fuel true
    if c.rest.head? = some close then some (acc.reverse, c.next)
    else
      match entry close fuel c with
      | none => none
      | some (e, c) =>
        match c.rest with
        | ',' :: _ => entries close fuel (e :: acc) c.next
        | ch :: _ => if ch = close then some ((e :: acc).reverse, c.next) else none
        | [] => none

/-- One entry, and the blanks behind it. -/
def entry (close : Char) : Nat → Cursor → Option (Entry × Cursor)
  | 0, _ => none
  | fuel + 1, start =>
    match node fuel start with
    | none => none
    | some (key, c) =>
      let c := c.skip true fuel true
      match c.rest with
      | ':' :: _ =>
        if !isKey start c then none
        else
          let c := c.next.skip true fuel true
          if c.rest.head?.any fun ch => ch == ',' || ch == close then
            some ((key, some nothing), c)
          else
            match node fuel c with
            | none => none
            | some (value, c) => some ((key, some value), c.skip true fuel true)
      | _ => some ((key, none), c)

end

/-- The record that a document holds. An empty document is an empty record; outside the braces, tabs
may only stand behind them on the same line. -/
def read? (text : String) : Option Json :=
  let input := text.toList
  if !input.all isAllowed then none
  else
    let fuel := 4 * input.length + 4
    let c := Cursor.skip false fuel false { rest := input }
    match c.rest with
    | [] => some (.object [])
    | '\x7b' :: _ =>
      match node fuel c with
      | some (result, c) =>
        if (c.skip false fuel true).rest.isEmpty then some result else none
      | none => none
    | _ => none

end StorageCluster.Flow
