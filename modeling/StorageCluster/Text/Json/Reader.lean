import StorageCluster.Text.Json
import StorageCluster.Text.Numeral

/-!
# Reading JSON

`Json.read?` accepts one value with blanks around it and nothing else. Each step returns what is
left of the text; `fuel` bounds the number of values and separators and is taken from the length of
the text, so it never runs out first.
-/
namespace StorageCluster.Json

def skipBlanks : List Char → List Char
  | c :: rest => if c = ' ' ∨ c = '\n' ∨ c = '\t' ∨ c = '\r' then skipBlanks rest else c :: rest
  | [] => []

def hexDigits : Nat → Nat → List Char → Option (Nat × List Char)
  | 0, acc, rest => some (acc, rest)
  | n + 1, acc, c :: rest =>
    match Numeral.digit? 16 c with
    | some d => hexDigits n (acc * 16 + d) rest
    | none => none
  | _ + 1, _, [] => none

def isHighSurrogate (unit : Nat) : Bool := 0xD800 ≤ unit && unit < 0xDC00

def isLowSurrogate (unit : Nat) : Bool := 0xDC00 ≤ unit && unit < 0xE000

def simpleEscape? (c : Char) : Option Char :=
  match c with
  | '"' => some '"'
  | '\\' => some '\\'
  | '/' => some '/'
  | 'b' => some (Char.ofNat 8)
  | 'f' => some (Char.ofNat 12)
  | 'n' => some '\n'
  | 'r' => some '\r'
  | 't' => some '\t'
  | _ => none

/-- How a string literal spells its characters. -/
inductive Spelling
  | plain
  | escaped
  /-- With half of a surrogate pair. -/
  | unpaired
  deriving DecidableEq

/-- The spelling of two literals, one of them with `a` and the other with `b`. -/
def Spelling.join (a b : Spelling) : Spelling :=
  match a, b with
  | .unpaired, _ | _, .unpaired => .unpaired
  | .escaped, _ | _, .escaped => .escaped
  | .plain, .plain => .plain

/-- The characters of a string literal after its opening quote, in reverse. -/
def stringBody : Nat → List Char → Spelling → List Char →
    Option (List Char × Spelling × List Char)
  | 0, _, _, _ => none
  | fuel + 1, acc, spelling, input =>
    match input with
    | [] => none
    | '"' :: rest => some (acc, spelling, rest)
    | '\\' :: 'u' :: rest =>
      match hexDigits 4 0 rest with
      | none => none
      | some (unit, rest) =>
        if isHighSurrogate unit then
          match rest with
          | '\\' :: 'u' :: more =>
            match hexDigits 4 0 more with
            | none => none
            | some (low, more) =>
              if isLowSurrogate low then
                let code := 0x10000 + (unit - 0xD800) * 0x400 + (low - 0xDC00)
                stringBody fuel (Char.ofNat code :: acc) (spelling.join .escaped) more
              else stringBody fuel acc .unpaired rest
          | _ => stringBody fuel acc .unpaired rest
        else if isLowSurrogate unit then stringBody fuel acc .unpaired rest
        else stringBody fuel (Char.ofNat unit :: acc) (spelling.join .escaped) rest
    | '\\' :: c :: rest =>
      match simpleEscape? c with
      | some e => stringBody fuel (e :: acc) (spelling.join .escaped) rest
      | none => none
    | c :: rest => if c.toNat < 32 then none else stringBody fuel (c :: acc) spelling rest

/-- A string literal after its opening quote: its text, its spelling and what is left. -/
def stringLiteral (fuel : Nat) (input : List Char) : Option (String × Spelling × List Char) :=
  (stringBody fuel [] .plain input).map fun (acc, spelling, rest) =>
    (String.ofList acc.reverse, spelling, rest)

def spanDigits (input : List Char) : List Char × List Char :=
  (input.takeWhile Char.isDigit, input.dropWhile Char.isDigit)

/-- A fraction: a point and at least one digit, or nothing. -/
def fraction (input : List Char) : Option (List Char × List Char) :=
  match input with
  | '.' :: rest =>
    match spanDigits rest with
    | ([], _) => none
    | (digits, rest) => some ('.' :: digits, rest)
  | _ => some ([], input)

def exponentDigits (mark : List Char) (input : List Char) : Option (List Char × List Char) :=
  match spanDigits input with
  | ([], _) => none
  | (digits, rest) => some (mark ++ digits, rest)

def exponent (input : List Char) : Option (List Char × List Char) :=
  match input with
  | c :: rest =>
    if c = 'e' ∨ c = 'E' then
      match rest with
      | '+' :: more => exponentDigits [c, '+'] more
      | '-' :: more => exponentDigits [c, '-'] more
      | _ => exponentDigits [c] rest
    else some ([], input)
  | [] => some ([], input)

/-- The whole part of a number has no needless leading zero. -/
def wholePart (input : List Char) : Option (List Char × List Char) :=
  match spanDigits input with
  | ([], _) => none
  | ('0' :: _ :: _, _) => none
  | (digits, rest) => some (digits, rest)

def numberLiteral (input : List Char) : Option (Json × List Char) :=
  let (sign, body) := match input with
    | '-' :: rest => (['-'], rest)
    | _ => ([], input)
  match wholePart body with
  | none => none
  | some (whole, rest) =>
    match fraction rest with
    | none => none
    | some (frac, rest) =>
      match exponent rest with
      | none => none
      | some (exp, rest) =>
        if sign = [] ∧ frac = [] ∧ exp = [] then
          some (.natural (whole.foldl (fun n c => n * 10 + (c.toNat - '0'.toNat)) 0), rest)
        else some (.decimal (String.ofList (sign ++ whole ++ frac ++ exp)), rest)

mutual

def value : Nat → List Char → Option (Json × List Char)
  | 0, _ => none
  | fuel + 1, input =>
    match skipBlanks input with
    | 'n' :: 'u' :: 'l' :: 'l' :: rest => some (.null, rest)
    | 't' :: 'r' :: 'u' :: 'e' :: rest => some (.bool true, rest)
    | 'f' :: 'a' :: 'l' :: 's' :: 'e' :: rest => some (.bool false, rest)
    | '"' :: rest =>
      (stringLiteral fuel rest).map fun (text, spelling, rest) =>
        (if spelling = .unpaired then .unpaired else .string text, rest)
    | '[' :: rest =>
      match skipBlanks rest with
      | ']' :: rest => some (.array [], rest)
      | rest => items fuel [] rest
    | '{' :: rest =>
      match skipBlanks rest with
      | '}' :: rest => some (.object [], rest)
      | rest => members fuel [] .plain rest
    | input => numberLiteral input

def items : Nat → List Json → List Char → Option (Json × List Char)
  | 0, _, _ => none
  | fuel + 1, acc, input =>
    match value fuel input with
    | none => none
    | some (item, rest) =>
      match skipBlanks rest with
      | ',' :: rest => items fuel (item :: acc) rest
      | ']' :: rest => some (.array (item :: acc).reverse, rest)
      | _ => none

/-- Members up to the closing brace; `spelling` is that of the names so far. -/
def members : Nat → List (String × Json) → Spelling → List Char → Option (Json × List Char)
  | 0, _, _, _ => none
  | fuel + 1, acc, spelling, input =>
    match skipBlanks input with
    | '"' :: rest =>
      match stringLiteral fuel rest with
      | none => none
      | some (name, own, rest) =>
        match skipBlanks rest with
        | ':' :: rest =>
          match value fuel rest with
          | none => none
          | some (item, rest) =>
            let acc := (name, item) :: acc
            let spelling := spelling.join own
            match skipBlanks rest with
            | ',' :: rest => members fuel acc spelling rest
            | '}' :: rest =>
              some (if spelling = .unpaired then .unpaired
                else .object acc.reverse (spelling = .plain), rest)
            | _ => none
        | _ => none
    | _ => none

end

/-- The value that a text spells, if it spells exactly one. -/
def read? (text : String) : Option Json :=
  let input := text.toList
  match value (2 * input.length + 2) input with
  | some (result, rest) => if (skipBlanks rest).isEmpty then some result else none
  | none => none

end StorageCluster.Json
