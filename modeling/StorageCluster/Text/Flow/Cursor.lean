/-!
# Cursors

A place in a text, counted in characters and in lines, and what stands between two words: blanks on
one line stay as they are, a line break folds into one blank, and of several breaks all but the
first stay. The breaks of lines and of paragraphs never fold.
-/
namespace StorageCluster.Flow

def isBlank (c : Char) : Bool := c == ' ' || c == '\t'

def isBreak (c : Char) : Bool :=
  c == '\n' || c == '\r' || c.toNat == 0x85 || c.toNat == 0x2028 || c.toNat == 0x2029

/-- What a line break counts as. -/
def lineBreak (c : Char) : Char := if c.toNat == 0x2028 || c.toNat == 0x2029 then c else '\n'

structure Cursor where
  rest : List Char
  index : Nat := 0
  line : Nat := 0
  column : Nat := 0

namespace Cursor

/-- Over some characters that are no line breaks. -/
def forward (c : Cursor) (count : Nat) : Cursor :=
  { c with rest := c.rest.drop count, index := c.index + count, column := c.column + count }

/-- Over a line break of some characters. -/
def newLine (c : Cursor) (count : Nat) : Cursor :=
  { rest := c.rest.drop count, index := c.index + count, line := c.line + 1, column := 0 }

/-- Over one character, or over one line break. -/
def next (c : Cursor) : Cursor :=
  match c.rest with
  | [] => c
  | '\r' :: '\n' :: _ => c.newLine 2
  | ch :: _ => if isBreak ch then c.newLine 1 else c.forward 1

/-- Whether a mark that separates documents stands at the start of this line. -/
def atSeparator (c : Cursor) : Bool :=
  c.column == 0 && (c.rest.take 3 == ['-', '-', '-'] || c.rest.take 3 == ['.', '.', '.']) &&
    (c.rest[3]?).all fun ch => isBlank ch || isBreak ch

/-- Over a byte order mark at the start of a line. -/
def skipMark (c : Cursor) : Cursor :=
  match c.rest with
  | ch :: _ => if c.column = 0 ∧ ch.toNat = 0xFEFF then c.forward 1 else c
  | [] => c

/-- Over blanks, line breaks and comments; `tabs` says whether tabs are blanks on this line, and
`inside` whether they are on later ones. -/
def skip (inside : Bool) : Nat → Bool → Cursor → Cursor
  | 0, _, c => c
  | fuel + 1, tabs, c =>
    let c := c.skipMark
    match c.rest with
    | [] => c
    | ch :: _ =>
      if ch = ' ' ∨ (ch = '\t' ∧ tabs) then skip inside fuel tabs c.next
      else if ch = '#' then
        skip inside fuel tabs (c.forward (c.rest.takeWhile fun ch => !isBreak ch).length)
      else if isBreak ch then skip inside fuel inside c.next
      else c

end Cursor

/-- Blanks and line breaks that were met, both in reverse. -/
structure Gap where
  blanks : List Char := []
  breaks : List Char := []

namespace Gap

def isEmpty (g : Gap) : Bool := g.blanks.isEmpty && g.breaks.isEmpty

def scan : Nat → Gap → Cursor → Gap × Cursor
  | 0, g, c => (g, c)
  | fuel + 1, g, c =>
    match c.rest with
    | [] => (g, c)
    | ch :: _ =>
      if isBreak ch then scan fuel { g with breaks := lineBreak ch :: g.breaks } c.next
      else if isBlank ch then scan fuel { g with blanks := ch :: g.blanks } c.next
      else (g, c)

/-- What the gap stands for, in reverse. -/
def folded (g : Gap) : List Char :=
  match g.breaks.reverse with
  | [] => g.blanks
  | '\n' :: [] => [' ']
  | '\n' :: more => more.reverse
  | _ => g.breaks

end Gap

end StorageCluster.Flow
