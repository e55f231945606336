import StorageCluster.Controller.Placement
import StorageCluster.Scenario.Expression.CharSet.Digits
import StorageCluster.Scenario.Expression.Size
import StorageCluster.Text.Blank
import StorageCluster.Text.Numeral

/-!
# Reading regular expressions

Alternatives are separated by a bar and made of items, each with repetitions behind it. Groups may
be named or set options for what follows in them; classes in brackets may be nested, negated and
combined. Looking around and referring back to a group are no part of the language; classes by
Unicode property are not read either, though other engines have them. Main definitions:
`Expression.read?` and the engine made of it, `Expression.engine`.
-/
namespace StorageCluster.Expression

/-- Options that groups can set. -/
structure Options where
  ignoreCase : Bool := false
  ignoreBlanks : Bool := false
  deriving DecidableEq

def Options.apply (o : Options) (set : CharSet) : CharSet :=
  if o.ignoreCase then set.foldCase else set

/-- What counts after blanks and comments, where they are to be ignored. -/
def skipIgnored (o : Options) : List Char → List Char
  | [] => []
  | c :: rest =>
    if o.ignoreBlanks && Blank.isBlank c then skipIgnored o rest
    else if o.ignoreBlanks && c == '#' then
      skipComment o rest
    else c :: rest
where
  /-- Up to the end of the line. -/
  skipComment (o : Options) : List Char → List Char
    | [] => []
    | '\n' :: rest => skipIgnored o rest
    | _ :: rest => skipComment o rest

def isMeta (c : Char) : Bool :=
  ['\\', '.', '+', '*', '?', '(', ')', '|', '[', ']', '\x7b', '\x7d', '^', '$', '#', '&', '-',
    '~'].contains c

/-- Punctuation may be escaped, letters, digits and angle brackets not. -/
def isEscapable (c : Char) : Bool :=
  c.toNat < 128 && !c.isAlphanum && c != '<' && c != '>'

/-- What an escape stands for. -/
inductive Escape
  | literal (c : Char)
  | charSet (set : CharSet)
  | boundary (kind : Boundary)

def charOf? (n : Nat) : Option Char := if n.isValidChar then some (Char.ofNat n) else none

def hexNumber (cs : List Char) : Option Nat :=
  if cs.isEmpty then none
  else match Numeral.readDigits 16 UInt32.size 0 cs with
    | .ok n => some n
    | .error _ => none

/-- The code of a character: in braces, or of a fixed number of digits. -/
def hexEscape (width : Nat) (input : List Char) : Option (Escape × List Char) :=
  match input with
  | '\x7b' :: rest =>
    match rest.dropWhile (· != '\x7d') with
    | _ :: more => do
      let n ← hexNumber (rest.takeWhile (· != '\x7d'))
      let c ← charOf? n
      return (.literal c, more)
    | [] => none
  | _ =>
    if input.length < width then none
    else do
      let n ← hexNumber (input.take width)
      let c ← charOf? n
      return (.literal c, input.drop width)

/-- An escape, after its backslash. -/
def escape : List Char → Option (Escape × List Char)
  | [] => none
  | c :: rest =>
    match c with
    | 'd' => some (.charSet .digits, rest)
    | 'D' => some (.charSet CharSet.digits.complement, rest)
    | 'w' => some (.charSet .word, rest)
    | 'W' => some (.charSet CharSet.word.complement, rest)
    | 's' => some (.charSet .blank, rest)
    | 'S' => some (.charSet CharSet.blank.complement, rest)
    | 'x' => hexEscape 2 rest
    | 'u' => hexEscape 4 rest
    | 'U' => hexEscape 8 rest
    | 'a' => some (.literal (Char.ofNat 7), rest)
    | 'f' => some (.literal (Char.ofNat 12), rest)
    | 't' => some (.literal '\t', rest)
    | 'n' => some (.literal '\n', rest)
    | 'r' => some (.literal '\r', rest)
    | 'v' => some (.literal (Char.ofNat 11), rest)
    | 'A' => some (.boundary .start, rest)
    | 'z' => some (.boundary .stop, rest)
    | 'b' => some (.boundary .word, rest)
    | 'B' => some (.boundary .notWord, rest)
    | '<' => some (.boundary .wordStart, rest)
    | '>' => some (.boundary .wordEnd, rest)
    | c => if isMeta c || isEscapable c then some (.literal c, rest) else none

/-- The classes named between `[:` and `:]`. -/
def namedClass? (name : String) : Option CharSet :=
  match name with
  | "alnum" => some .alphanumeric
  | "alpha" => some .letters
  | "ascii" => some (.range 0 0x7F)
  | "blank" => some (.ofString "\t ")
  | "cntrl" => some (.ofRanges [(0, 0x1F), (0x7F, 0x7F)])
  | "digit" => some .asciiDigits
  | "graph" => some (.range 0x21 0x7E)
  | "lower" => some .lower
  | "print" => some (.range 0x20 0x7E)
  | "punct" => some ((CharSet.range 0x21 0x7E).diff .alphanumeric)
  | "space" => some (.ofRanges [(9, 13), (0x20, 0x20)])
  | "upper" => some .upper
  | "word" => some .word
  | "xdigit" => some (.ofRanges [(0x30, 0x39), (0x41, 0x46), (0x61, 0x66)])
  | _ => none

/-- A named class after its opening bracket and colon. -/
def bracketName? (input : List Char) : Option (CharSet × List Char) :=
  let (negated, input) := match input with
    | '^' :: rest => (true, rest)
    | _ => (false, input)
  let name := input.takeWhile fun c => c.isAlpha
  match input.drop name.length with
  | ':' :: ']' :: rest =>
    (namedClass? (String.ofList name)).map fun set =>
      (if negated then set.complement else set, rest)
  | _ => none

/-- One item of a class: a single character, which may begin a range, or a class of its own. -/
def classItem : List Char → Option (Escape × List Char)
  | '\\' :: rest =>
    match escape rest with
    | some (.boundary _, _) => none
    | other => other
  | c :: rest => some (.literal c, rest)
  | [] => none

/-- The far end of a range, if a hyphen follows that does not stand for itself. -/
def rangeEnd? (o : Options) (input : List Char) : Option (List Char) :=
  match skipIgnored o input with
  | '-' :: rest =>
    match skipIgnored o rest with
    | [] => none
    | c :: more => if c = ']' ∨ c = '-' then none else some (c :: more)
  | _ => none

/-- An item or a range of a class. -/
def classRange (o : Options) (input : List Char) : Option (CharSet × List Char) :=
  match classItem input with
  | none => none
  | some (.boundary _, _) => none
  | some (.charSet set, rest) => if (rangeEnd? o rest).isSome then none else some (set, rest)
  | some (.literal low, rest) =>
    match rangeEnd? o rest with
    | none => some (.single low, rest)
    | some more =>
      match classItem more with
      | some (.literal high, rest) =>
        if low ≤ high then some (.range low.toNat high.toNat, rest) else none
      | _ => none

/-- How two parts of a class are combined. -/
inductive Combination
  | both
  | firstOnly
  | exactlyOne

def Combination.apply (k : Combination) (a b : CharSet) : CharSet :=
  match k with
  | .both => a.inter b
  | .firstOnly => a.diff b
  | .exactlyOne => a.symmetricDifference b

/-- Items of a class one after another: all their ranges, how many items there are, and how deep
they nest. -/
structure ClassItems where
  ranges : List (Nat × Nat) := []
  count : Nat := 0
  nesting : Nat := 0

namespace ClassItems

def add (s : ClassItems) (set : CharSet) (nesting : Nat) : ClassItems :=
  { ranges := s.ranges ++ set.ranges, count := s.count + 1, nesting := max s.nesting nesting }

end ClassItems

/-- A class as far as it is read: the set, and how deep its parts nest. -/
structure ClassPart where
  set : CharSet
  nesting : Nat

/-- Several items nest one deeper than each of them. -/
def ClassItems.toPart (o : Options) (s : ClassItems) : ClassPart where
  set := o.apply (.ofRanges s.ranges)
  nesting := if s.count ≥ 2 then s.nesting + 1 else s.nesting

/-- A class with what it is to be combined with. -/
def combined (pending : Option (ClassPart × Combination)) (p : ClassPart) : ClassPart :=
  match pending with
  | none => p
  | some (left, k) => ⟨k.apply left.set p.set, max left.nesting p.nesting + 1⟩

def hyphens (o : Options) (found : ClassItems) : Nat → List Char → ClassItems × List Char
  | 0, rest => (found, rest)
  | fuel + 1, input =>
    match skipIgnored o input with
    | '-' :: rest => hyphens o (found.add (.single '-') 0) fuel rest
    | rest => (found, rest)

/-- Start of a class: negation, then hyphens or one closing bracket that stand for themselves. -/
def classStart (o : Options) (input : List Char) : Bool × ClassItems × List Char :=
  let (negated, input) := match skipIgnored o input with
    | '^' :: rest => (true, rest)
    | input => (false, input)
  match skipIgnored o input with
  | ']' :: rest => (negated, ({} : ClassItems).add (.single ']') 0, rest)
  | input =>
    let (found, rest) := hyphens o {} input.length input
    (negated, found, rest)

mutual

/-- A class after its opening bracket. -/
def bracket (o : Options) : Nat → List Char → Option (ClassPart × List Char)
  | 0, _ => none
  | fuel + 1, input =>
    let (negated, found, rest) := classStart o input
    match classBody o fuel none found rest with
    | none => none
    | some (part, rest) =>
      some (⟨if negated then part.set.complement else part.set, part.nesting + 1⟩, rest)

def classBody (o : Options) : Nat → Option (ClassPart × Combination) → ClassItems → List Char →
    Option (ClassPart × List Char)
  | 0, _, _, _ => none
  | fuel + 1, pending, found, input =>
    let combine (k : Combination) (rest : List Char) : Option (ClassPart × List Char) :=
      classBody o fuel (some (combined pending (found.toPart o), k)) {} rest
    match skipIgnored o input with
    | [] => none
    | ']' :: rest => some (combined pending (found.toPart o), rest)
    | '[' :: ':' :: rest =>
      match bracketName? rest with
      | some (set, rest) => classBody o fuel pending (found.add set 0) rest
      | none => nestedClass o fuel pending found (':' :: rest)
    | '[' :: rest => nestedClass o fuel pending found rest
    | '&' :: '&' :: rest => combine .both rest
    | '-' :: '-' :: rest => combine .firstOnly rest
    | '~' :: '~' :: rest => combine .exactlyOne rest
    | input =>
      match classRange o input with
      | some (set, rest) => classBody o fuel pending (found.add set 0) rest
      | none => none

def nestedClass (o : Options) : Nat → Option (ClassPart × Combination) → ClassItems →
    List Char → Option (ClassPart × List Char)
  | 0, _, _, _ => none
  | fuel + 1, pending, found, input =>
    match bracket o fuel input with
    | some (part, rest) => classBody o fuel pending (found.add part.set part.nesting) rest
    | none => none

end

/-- A number with blanks around it. -/
def countNumber (input : List Char) : Option Nat × List Char :=
  let input := input.dropWhile Blank.isBlank
  let digits := input.takeWhile Char.isDigit
  let rest := (input.drop digits.length).dropWhile Blank.isBlank
  match digits, Numeral.readDigits 10 UInt32.size 0 digits with
  | _ :: _, .ok n => (some n, rest)
  | _, _ => (none, rest)

/-- The bounds of a counted repetition, after the opening brace. -/
def bounds (input : List Char) : Option ((Nat × Option Nat) × List Char) :=
  match countNumber input with
  | (some least, '\x7d' :: rest) => some ((least, some least), rest)
  | (some least, ',' :: rest) =>
    match rest.dropWhile Blank.isBlank with
    | '\x7d' :: rest => some ((least, none), rest)
    | rest =>
      match countNumber rest with
      | (some most, '\x7d' :: rest) =>
        if least ≤ most then some ((least, some most), rest) else none
      | _ => none
  | _ => none

def dropLazyMark : List Char → List Char
  | '?' :: rest => rest
  | rest => rest

def isNameStart (c : Char) : Bool := c.isAlpha || c == '_'

def isNamePart (c : Char) : Bool :=
  c.isAlphanum || c == '_' || c == '.' || c == '[' || c == ']'

/-- The name of a group, after the opening angle bracket. -/
def groupName? (input : List Char) : Option (String × List Char) :=
  let name := input.takeWhile (· != '>')
  match name, input.drop name.length with
  | c :: cs, '>' :: rest =>
    if isNameStart c && cs.all isNamePart then some (String.ofList name, rest) else none
  | _, _ => none

/-- Options up to a closing parenthesis or a colon, each at most once. -/
def optionLetters (o : Options) (seen : List Char) (on : Bool) : List Char →
    Option (Options × Bool × List Char)
  | [] => none
  | ')' :: rest =>
    if seen.isEmpty || seen.head? = some '-' then none else some (o, false, rest)
  | ':' :: rest => if seen.head? = some '-' then none else some (o, true, rest)
  | c :: rest =>
    if seen.contains c then none
    else match c with
      | '-' => optionLetters o (c :: seen) false rest
      | 'i' => optionLetters { o with ignoreCase := on } (c :: seen) on rest
      | 'x' => optionLetters { o with ignoreBlanks := on } (c :: seen) on rest
      | 'm' | 's' | 'U' | 'u' | 'R' => optionLetters o (c :: seen) on rest
      | _ => none

/-- How a group begins. -/
inductive GroupStart
  | group (o : Options) (name : Option String) (captures : Bool)
  | options (o : Options)

/-- What stands after the opening parenthesis of a group. -/
def groupStart (o : Options) : List Char → Option (GroupStart × List Char)
  | '?' :: 'P' :: '<' :: rest =>
    (groupName? rest).map fun (name, rest) => (.group o (some name) true, rest)
  | '?' :: '<' :: rest =>
    (groupName? rest).map fun (name, rest) => (.group o (some name) true, rest)
  | '?' :: rest =>
    (optionLetters o [] true rest).map fun (o, opens, rest) =>
      (if opens then .group o none false else .options o, rest)
  | rest => some (.group o none true, rest)

/-- An expression, and how deep groups, classes, repetitions, sequences and alternatives nest in its
spelling. -/
structure Part where
  expression : Expression
  nesting : Nat := 0

/-- Items of a sequence, last first; `none` stands where options were set. -/
abbrev Items := List (Option Part)

/-- Several parts nest one deeper than each of them. -/
def nestingOf (parts : List Part) (count : Nat) : Nat :=
  let deepest := (parts.map Part.nesting).foldl max 0
  if count ≥ 2 then deepest + 1 else deepest

def Items.join (items : Items) : Part :=
  let parts := items.filterMap id
  { expression := parts.foldl (fun later p => p.expression.append later) .empty
    nesting := nestingOf parts items.length }

/-- Put a repetition on the last item. -/
def Items.copies? (items : Items) (least : Nat) (most : Option Nat) : Option Items :=
  match items with
  | some p :: rest =>
    some (some ⟨Expression.copies least most p.expression, p.nesting + 1⟩ :: rest)
  | _ => none

/-- A group under way: the options, group names and alternatives so far. -/
structure Progress where
  options : Options
  names : List String
  alternatives : List Part := []
  items : Items := []

namespace Progress

def push (s : Progress) (p : Expression) : Progress := { s with items := some ⟨p, 0⟩ :: s.items }

def pushPart (s : Progress) (p : Part) : Progress := { s with items := some p :: s.items }

def finish (s : Progress) : Part :=
  let all := (s.items.join :: s.alternatives).reverse
  { expression := ofAlternatives (all.map Part.expression), nesting := nestingOf all all.length }

def nextAlternative (s : Progress) : Progress :=
  { s with alternatives := s.items.join :: s.alternatives, items := [] }

def repeatLast (s : Progress) (least : Nat) (most : Option Nat) : Option Progress :=
  (s.items.copies? least most).map fun items => { s with items }

end Progress

def ofEscape (o : Options) : Escape → Expression
  | .literal c => .one (o.apply (.single c))
  | .charSet set => .one (o.apply set)
  | .boundary kind => .boundary kind

/-- Read items up to the end of the group (`inner`) or of the text. -/
def readItems : Nat → Bool → Progress → List Char → Option (Part × List String × List Char)
  | 0, _, _, _ => none
  | fuel + 1, inner, s, input =>
    match skipIgnored s.options input with
    | [] => if inner then none else some (s.finish, s.names, [])
    | ')' :: rest => if inner then some (s.finish, s.names, rest) else none
    | '|' :: rest => readItems fuel inner s.nextAlternative rest
    | '*' :: rest =>
      (s.repeatLast 0 none).bind fun s => readItems fuel inner s (dropLazyMark rest)
    | '+' :: rest =>
      (s.repeatLast 1 none).bind fun s => readItems fuel inner s (dropLazyMark rest)
    | '?' :: rest =>
      (s.repeatLast 0 (some 1)).bind fun s => readItems fuel inner s (dropLazyMark rest)
    | '\x7b' :: rest =>
      match bounds rest with
      | none => none
      | some ((least, most), rest) =>
        (s.repeatLast least most).bind fun s => readItems fuel inner s (dropLazyMark rest)
    | '^' :: rest => readItems fuel inner (s.push (.boundary .start)) rest
    | '$' :: rest => readItems fuel inner (s.push (.boundary .stop)) rest
    | '.' :: rest => readItems fuel inner (s.push (.one (CharSet.single '\n').complement)) rest
    | '\\' :: rest =>
      match escape rest with
      | none => none
      | some (e, rest) => readItems fuel inner (s.push (ofEscape s.options e)) rest
    | '[' :: rest =>
      match bracket s.options fuel rest with
      | none => none
      | some (part, rest) =>
        readItems fuel inner (s.pushPart ⟨.one part.set, part.nesting⟩) rest
    | '(' :: rest =>
      match groupStart s.options rest with
      | none => none
      | some (.options o, rest) =>
        readItems fuel inner { s with options := o, items := none :: s.items } rest
      | some (.group o name captures, rest) =>
        if name.any s.names.contains then none
        else
          match readItems fuel true { options := o, names := name.toList ++ s.names } rest with
          | none => none
          | some (p, names, rest) =>
            let expression := if captures then .group p.expression else p.expression
            readItems fuel inner { s.pushPart ⟨expression, p.nesting + 1⟩ with names } rest
    | c :: rest => readItems fuel inner (s.push (.one (s.options.apply (.single c)))) rest

def maxNesting : Nat := 250

/-- The expression that a text spells, unless it nests too deep or is too large. -/
def read? (text : String) : Option Expression :=
  let input := text.toList
  match readItems (2 * input.length + 2) false { options := {}, names := [] } input with
  | some (p, _, _) =>
    if p.nesting ≤ maxNesting ∧ p.expression.fits then some p.expression else none
  | none => none

/-- The engine that reads these expressions. -/
def engine : PatternEngine where
  compile text := (read? text).map fun expression => ⟨expression.matches?⟩

end StorageCluster.Expression
